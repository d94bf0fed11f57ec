/-
# When a handler throws

Two handlers look sessions up with `get_session`, which throws for a player that is not in
`players_` and gives a pointer that nobody checks: the one that makes a room, for the players it
has taken out of the queue, and the chat, for the players of the room, which is itself a pointer
that may be null.  Every other handler returns, in every state that a run reaches
(`handled_iff`): the lookups of the close callback, of the reconnect and of the sweep are of rooms
and players that are there.

Clients that follow the simulator do not get the queue to throw.  A chat of theirs throws exactly
when its room is gone or has a player who is `Offline` (`conforming_handled_iff`).
-/

import GameServer.IdleConnections
import GameServer.Reclamation

namespace GameServer
namespace Server

/-- What the handler of the event looks up is there. -/
def Finds (s : Server) : Event → Prop
  | .request _ (.match req) _ => 0 < toInt req.playerId →
      toInt req.playerId ∉ s.matchQueue.inQueue →
        ∀ p ∈ (s.core.popped (toInt req.playerId)).1, s.core.Resolves p
  | .request _ (.chat req) _ => ∃ room, s.roomManager.getRoom (toInt req.roomId) = some room ∧
      ∀ p ∈ room.playerIds, s.core.Resolves p
  | _ => True

variable {s s' : Server}

/-- A handler that returns has found what it looked up. -/
theorem finds_of_step {e : Event} (h : s.step e = .ok s') : s.Finds e := by
  have hcase := handled_of_step h
  generalize s.act e = a at hcase
  clear h
  cases hcase with
  | matchRefused href reason =>
    intro hp hq
    exact absurd href (not_or.2 ⟨not_le.2 hp, hq⟩)
  | wait hp hq he =>
    intro _ _ p hp
    rw [he] at hp
    exact absurd hp List.not_mem_nil
  | room _ _ hps _ hres => exact fun _ _ => hps ▸ hres
  | chat hroom hres => exact ⟨_, hroom, hres⟩
  | _ => trivial

/-- Closing one session returns. -/
theorem close_isOk {sid : SessionId} (now : Instant) (hw : WellBound s.core) (hn : Numbered s.core)
    (hl : Linked s.core) (halive : s.core.Alive sid) : ∃ s', s.close sid now = .ok s' := by
  obtain ⟨s', hs'⟩ : ∃ s', s.closeAll now [sid] = .ok s' :=
    closeAll_isOk hw hn hl (List.forall_mem_singleton.2 halive)
  unfold closeAll at hs'
  split at hs'
  · exact ⟨_, ‹_›⟩
  · cases hs'

/-- **A handler that finds what it looks up returns.** -/
theorem step_of_finds {e : Event} (hw : WellBound s.core) (hn : Numbered s.core)
    (hl : Linked s.core) (hen : s.Enabled e) (h : s.Finds e) : ∃ s', server.step s e s' := by
  have hreturns : (∃ s', s.step e = .ok s') → ∃ s', server.step s e s' := fun ⟨s', hs'⟩ =>
    ⟨s', hen, hs'⟩
  cases e with
  | accept sid now | release sid => exact hreturns ⟨_, rfl⟩
  | close sid now => exact hreturns (close_isOk now hw hn hl ((s.alive_iff sid).1 hen))
  | sweep order now => exact hl.step_sweep hen now
  | request sid req now =>
    cases req with
    | «match» req => exact hreturns (handleMatch_of_resolves (s := s.received sid now) sid rfl h)
    | chat req =>
      obtain ⟨room, hroom, hres⟩ := h
      exact hreturns (handleChat_of_resolves (s := s.received sid now) sid hroom hres)
    | reconnect req =>
      obtain ⟨rm, hrm⟩ := hl.mark_isOk (toInt req.playerId) .online
      exact step_reconnect now hen.1 hrm
    | _ => exact hreturns ⟨_, rfl⟩

end Server

/-- **When a handler throws.**  In every state that a run reaches, as long as neither counter
has wrapped around, an event that comes is handled exactly when it is not a MatchReq that takes a
player out of the queue whom `get_session` does not find, nor a ChatReq for a room that is gone or
has such a player. -/
theorem handled_iff {tr : History} {s : Server} (h : server.Run tr s)
    (hl : tr.logins < 2 ^ 31 - 10000) (hr : tr.roomsCreated < 2 ^ 31 - 1) {e : Event}
    (hen : s.Enabled e) : (∃ s', server.step s e s') ↔ s.Finds e :=
  ⟨fun ⟨_, hs'⟩ => Server.finds_of_step hs'.2,
    Server.step_of_finds (WellBound.of_run h hl) (Numbered.of_run h hr) (Linked.of_run h hl hr) hen⟩

/-- One of two matched players leaves, and the other one chats. -/
theorem handled_iff_left : ∃ tr s, server.Run tr s ∧
    ¬ ∃ s', server.step s (.request 0 (.chat { roomId := 1, text := [0x68] }) {}) s' := by
  obtain ⟨tr, s, h, hl, hr, halive, hroom, hgone⟩ := Server.exists_run
    (Q := fun tr s => tr.logins < 2 ^ 31 - 10000 ∧ tr.roomsCreated < 2 ^ 31 - 1 ∧ s.alive 0 ∧
      (∃ room ∈ s.roomManager.getRoom 1, 10001 ∈ room.playerIds) ∧ ¬ s.core.Resolves 10001)
    (Server.pairUp ++ [.close 1 {}]) (by decide +kernel)
  refine ⟨tr, s, h, fun hs' => ?_⟩
  have hen : s.Enabled (.request 0 (.chat { roomId := 1, text := [0x68] }) {}) := ⟨halive, trivial⟩
  obtain ⟨room, hget, hres⟩ := (handled_iff h hl hr hen).1 hs'
  obtain ⟨room', hget', hmem⟩ := hroom
  obtain rfl := Option.some.inj (hget.symm.trans hget')
  exact hgone (hres 10001 hmem)

/-! ### Clients that follow the simulator -/

/-- Conforming clients have open sessions in `players_`. -/
theorem resolves_of_conforms {tr : History} {s : Server} (h : server.Run tr s)
    (ha : Accounted s.core (tr.ledger s)) {p : PlayerId} (hp : p ∈ s.playerManager.players) :
    s.core.Resolves p := by
  obtain ⟨sid, hsid⟩ := Finmap.mem_iff.1 hp
  obtain ⟨hp0, hbound⟩ := ha.introduced.player hsid
  exact ⟨sid, hsid, alive_of_connected h sid (registered_of_bound h hp0 hbound)⟩

/-- **When a conforming client makes a handler throw.**  If the clients of a run follow the
simulator, the next event with them, it is handled exactly when it is not a ChatReq for a room that is
gone or has a player who is `Offline`. -/
theorem conforming_handled_iff {tr : History} {s : Server} (h : server.Run tr s) {e : Event}
    (hc : Conforms ((s, e) :: tr)) (hl : tr.logins < 2 ^ 31 - 10000)
    (hr : tr.roomsCreated < 2 ^ 31 - 1) (hen : s.Enabled e) :
    (∃ s', server.step s e s') ↔ ∀ sid req now, e = .request sid (.chat req) now →
      ∃ room, s.roomManager.getRoom (toInt req.roomId) = some room ∧
        ∀ p ∈ room.playerIds, ¬ s.core.Offline p := by
  obtain ⟨hopen, hsends, hc⟩ := hc
  have hw := WellBound.of_run h hl
  have hf := Formed.of_run h
  have hlink := Linked.of_run h hl hr
  have ha := Accounted.of_run h hc hl
  constructor
  · rintro ⟨s', hs'⟩ sid req now rfl
    obtain ⟨room, hroom, hres⟩ := Server.finds_of_step hs'.2
    refine ⟨room, hroom, fun p hp hoff => ?_⟩
    obtain ⟨sid', hsid', -⟩ := hres p hp
    exact hw.online (Finmap.mem_of_lookup_eq_some hsid') hoff
  · intro hchat
    refine Server.step_of_finds hw (Numbered.of_run h hr) hlink hen ?_
    cases e with
    | request sid req now =>
      cases req with
      | «match» req =>
        -- Whoever is taken out of the queue has just joined it or was in it: both are connected.
        intro hp hq x hx
        obtain ⟨hfirst, x', hx', hsid, hid⟩ := hsends
        have hallow : toInt req.playerId ∉ (tr.ledger s).matched ∧
            ∃ x ∈ (tr.ledger s).issued, x.2.1 = toInt req.playerId ∧ s.core.Open x.1 :=
          ⟨fun ⟨y, hy, hreq⟩ => hfirst y hy hreq, x', hx', hid,
            hsid ▸ Server.isOpen_of_alive hen.1 hopen⟩
        have hjoined := ha.queued.joined ha.introduced hw hp hallow ((hf.popped hp hq).2.1 x hx).2
        exact resolves_of_conforms h ha hjoined.1
      | chat req =>
        obtain ⟨room, hroom, hon⟩ := hchat sid req now rfl
        refine ⟨room, hroom, fun p hp => resolves_of_conforms h ha ?_⟩
        by_contra hnot
        have hmap := Finmap.mem_of_lookup_eq_some (ha.members _ room hroom p hp)
        exact hon p hp (hlink.offline hmap hnot)
      | _ => trivial
    | _ => trivial

/-- Two matched players who are both there. -/
theorem conforming_handled_iff_pair : ∃ tr s, server.Run tr s ∧
    ∃ s', server.step s (.request 0 (.chat { roomId := 1, text := [0x68] }) {}) s' := by
  obtain ⟨tr, s, h, hc, hl, hr, halive, room, hroom, hon⟩ := Server.exists_run
    (Q := fun tr s => Conforms ((s, .request 0 (.chat { roomId := 1, text := [0x68] }) {}) :: tr) ∧
      tr.logins < 2 ^ 31 - 10000 ∧ tr.roomsCreated < 2 ^ 31 - 1 ∧ s.alive 0 ∧
      ∃ room ∈ s.roomManager.getRoom 1, ∀ p ∈ room.playerIds, ¬ s.core.Offline p)
    Server.pairUp (by decide +kernel)
  refine ⟨tr, s, h, (conforming_handled_iff h hc hl hr ⟨halive, trivial⟩).2 ?_⟩
  rintro sid req now heq
  obtain ⟨rfl, hreq, rfl⟩ := Event.request.inj heq
  obtain rfl := Request.chat.inj hreq
  exact ⟨room, hroom, hon⟩

end GameServer
