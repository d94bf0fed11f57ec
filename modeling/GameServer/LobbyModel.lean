/-
# The server as a lobby

What the server is for can be said without sessions, tokens, tables and packets: players come in,
line up, get rooms in pairs, leave, come back and are forgotten after a while (`Lib/Lobby.lean`).
`Core.lobby` reads such a lobby off the state of the server: who is in `players_`, who is held
`Offline` since when, the deque of the match queue, and the map from players to rooms.  The id 0,
under which the close callback files the connections that never logged in, is nobody.

With clients that follow the simulator every event of the server is a move of the lobby or nothing
(`CoreStep.follows`), so a run of the server is a run of the lobby (`lobby_refines`), and what holds
in every lobby holds in the server (`everybody_in_one_place`).
-/

import GameServer.Lib.Lobby
import GameServer.Reclamation

namespace GameServer

/-- Whoever left at `t` is removed by a sweep at `now`. -/
def late (now t : Time) : Bool := 30 < elapsedSeconds now t

/-- Players, who have rooms in pairs. -/
abbrev PlayerLobby := Lobby PlayerId RoomId Time

/-- The lobby that the managers make up. -/
def Core.lobby (c : Core) : PlayerLobby where
  present := {p | p ∈ c.playerManager.players}
  away p := if p = 0 then none else (c.playerStateManager.states.lookup p).bind fun st =>
    if st.connState = .offline then some st.disconnectedTime else none
  line := c.matchQueue.queue
  room p := c.roomManager.playerRoomMap.lookup p

/-- What an act is to the lobby. -/
def Act.move (c : Core) : Act → Option (Lobby.Move PlayerId RoomId Time)
  | .login _ => some (.enter c.nextPlayerId)
  | .wait p => some (.wait p)
  | .room p _ => some (.gather p c.roomManager.nextRoomId)
  | .resume _ p _ => some (.back p)
  | .close sid now => (c.sessions.lookup sid).bind fun ses =>
      if ses.playerId = 0 then none else some (.leave ses.playerId now)
  | .sweep _ now => some (.forget now)
  | .idle | .accept _ | .release _ => none

namespace Core

variable {c c' : Core}

theorem away_lobby {p : PlayerId} {t : Time} :
    c.lobby.away p = some t ↔ p ≠ 0 ∧ c.OfflineSince p t := by
  simp only [lobby, OfflineSince]
  split_ifs with hp
  · simp [hp]
  · cases c.playerStateManager.states.lookup p <;> simp [hp]

theorem isSome_away_lobby {p : PlayerId} : (c.lobby.away p).isSome ↔ p ≠ 0 ∧ c.Offline p := by
  rw [Option.isSome_iff_exists, offline_iff]
  simp only [away_lobby, exists_and_left]

/-- The lobby is the one with these people in it. -/
theorem lobby_eq {L : PlayerLobby} (hpresent : ∀ p, p ∈ c.playerManager.players ↔ p ∈ L.present)
    (haway : ∀ p t, p ≠ 0 ∧ c.OfflineSince p t ↔ L.away p = some t)
    (hline : c.matchQueue.queue = L.line)
    (hroom : ∀ p, c.roomManager.playerRoomMap.lookup p = L.room p) : c.lobby = L := by
  refine Lobby.ext (Set.ext hpresent) (funext fun p => Option.ext fun t => ?_) hline (funext hroom)
  rw [← haway]
  exact away_lobby

/-- What a MatchReq does to the deque. -/
theorem popped_queue (c : Core) (p : PlayerId) :
    ((c.popped p).1 = [] ∧ c.matchQueue.queue.length + 1 < 2 ∧
        (c.popped p).2.queue = c.matchQueue.queue ++ [p]) ∨
      (c.popped p).1 ≠ [] ∧ 2 ≤ c.matchQueue.queue.length + 1 ∧
        (c.popped p).1 = (c.matchQueue.queue ++ [p]).take 2 ∧
        (c.popped p).2.queue = (c.matchQueue.queue ++ [p]).drop 2 := by
  have hjoin : (c.matchQueue.join p).queue = c.matchQueue.queue ++ [p] := rfl
  have hlen : (c.matchQueue.queue ++ [p]).length = c.matchQueue.queue.length + 1 := by simp
  rw [popped]
  rcases (c.matchQueue.join p).tryPop_two with ⟨hlt, heq⟩ | ⟨x, y, rest, hq, heq⟩
  · rw [hjoin, hlen] at hlt
    rw [heq]
    exact .inl ⟨rfl, hlt, rfl⟩
  · rw [hjoin] at hq
    rw [heq, hq]
    have hle : 2 ≤ c.matchQueue.queue.length + 1 := by
      rw [← hlen, hq]
      simp
    exact .inr ⟨List.cons_ne_nil _ _, hle, rfl, rfl⟩

end Core

/-! ### The simulation -/

section Simulation

variable {c c' : Core} {L : Ledger}

/-- Nobody has the id 0. -/
theorem Accounted.zero (h : Accounted c L) (hf : Formed c) (hl : Linked c) :
    0 ∉ c.playerManager.players ∧ 0 ∉ c.matchQueue.queue ∧ 0 ∉ c.roomManager.playerRoomMap := by
  refine ⟨fun hp => ?_, fun hq => lt_irrefl _ (hf.queue.pos 0 hq), fun hm => ?_⟩
  · obtain ⟨sid, hsid⟩ := Finmap.mem_iff.1 hp
    exact (h.introduced.player hsid).1 rfl
  · obtain ⟨r, hr⟩ := Finmap.mem_iff.1 hm
    obtain ⟨room, -, hroom, hmem, -⟩ := hl.mapped hr
    obtain ⟨_, heq, hform⟩ := hf.room hroom
    obtain rfl := Option.some.inj heq
    exact lt_irrefl _ (hform.pos 0 hmem)

theorem Accounted.free (h : Accounted c L) (hw : WellBound c) (hf : Formed c) {p : PlayerId}
    (hp : 0 < p) (hq : p ∉ c.matchQueue.inQueue)
    (hallow : p ∉ L.matched ∧ ∃ x ∈ L.issued, x.2.1 = p ∧ c.Open x.1) : c.lobby.Free p where
  present := h.introduced.connected hw hp hallow.2
  line hline := hq ((hf.queue.mem_inQueue p).2 hline)
  room := (Table.not_mem_iff ..).1 fun hmap => hallow.1 (h.queued.matched (.inr hmap))

/-- A closed connection is that of a player who leaves, or of nobody. -/
theorem Accounted.follows_close (h : Accounted c L) (hw : WellBound c) (hf : Formed c)
    (hl : Linked c) {sid : SessionId} {now : Time} (hs : CoreStep c (.close sid now) c') :
    (Lobby.system PlayerId RoomId Time 2 late).Follows c.lobby c'.lobby
      ((Act.close sid now).move c) := by
  obtain ⟨hplayers, hqueue, -⟩ := h.zero hf hl
  cases hs with
  | @close _ ses _ rm hses hopen _ hrm =>
    have hmap := (RoomManager.playerRoomMap_mark hrm).1
    have hmove : (Act.close sid now).move c =
        if ses.playerId = 0 then none else some (.leave ses.playerId now) := by
      rw [Act.move, hses]
      rfl
    rw [hmove]
    have hleave : (c.matchQueue.leave ses.playerId).queue =
        c.matchQueue.queue.erase ses.playerId := by
      unfold MatchQueue.leave
      split_ifs with hin
      · rfl
      · rw [List.erase_of_not_mem fun hq => hin ((hf.queue.mem_inQueue _).2 hq)]
    split_ifs with hp
    · refine Core.lobby_eq (fun q => ?_) (fun q t => ?_) ?_ fun q => ?_
      · refine Finmap.mem_erase.trans (and_iff_right_of_imp ?_)
        rintro hq rfl
        exact hplayers (hp ▸ hq)
      · rw [Core.offlineSince_close rfl, Core.away_lobby, hp]
        refine and_congr_right fun hq => ?_
        rw [if_neg hq]
      · rw [hleave, hp]
        exact List.erase_of_not_mem hqueue
      · exact congrArg _ hmap
    · have hbound : c.Bound sid ses.playerId := ⟨ses, hses, hopen, rfl⟩
      have hpresent := Finmap.mem_of_lookup_eq_some (hw.bound hbound hp)
      have hlobby : Core.lobby { c with
          sessions := c.sessions.modify sid fun ses => { ses with closed := true }
          matchQueue := c.matchQueue.leave ses.playerId
          playerManager := c.playerManager.removePlayer ses.playerId
          connectionManager := c.connectionManager.removeSession sid
          playerStateManager := (c.playerStateManager.saveOnline ses.playerId
            (c.roomManager.getRoomIdByPlayer ses.playerId) ses.token).markDisconnected
              ses.playerId now
          roomManager := rm } = c.lobby.leave ses.playerId now := by
        refine Core.lobby_eq (fun q => ?_) (fun q t => ?_) hleave fun q => congrArg _ hmap
        · exact Finmap.mem_erase.trans and_comm
        · rw [Core.offlineSince_close rfl]
          show _ ↔ (if q = ses.playerId then some now else c.lobby.away q) = some t
          split_ifs with hq
          · rw [hq, Option.some_inj]
            exact ⟨fun h => h.2.symm, fun h => ⟨hp, h.symm⟩⟩
          · exact Core.away_lobby.symm
      rw [hlobby]
      exact .leave now hpresent

/-- A sweep forgets those who are late. -/
theorem Accounted.follows_sweep (h : Accounted c L) (hf : Formed c) (hl : Linked c)
    {ps : List PlayerId} {now : Time} (hs : CoreStep c (.sweep ps now) c') :
    Lobby.Step 2 late c.lobby (.forget now) c'.lobby := by
  obtain ⟨hmem, hfold⟩ := hs.of_sweep
  have hframe := Core.sweep_frame hfold
  have hgone : ∀ p, p ≠ 0 → ((c.lobby.away p).any (late now) = true ↔ p ∈ ps) := fun p hp => by
    rw [hmem p]
    constructor
    · intro hany
      obtain ⟨t, ht, hlate⟩ := (Option.any_eq_true _ _).1 hany
      exact ⟨t, (Core.away_lobby.1 ht).2, of_decide_eq_true hlate⟩
    · rintro ⟨t, ht, hlate⟩
      exact (Option.any_eq_true _ _).2 ⟨t, Core.away_lobby.2 ⟨hp, ht⟩, decide_eq_true hlate⟩
  have hlobby : c'.lobby = c.lobby.forget (late now) := by
    refine Core.lobby_eq (fun p => by rw [hframe]; rfl) (fun p t => ?_) (by rw [hframe]; rfl)
      fun p => ?_
    · rw [Core.offlineSince_sweep hfold]
      show _ ↔ ((c.lobby.away p).filter fun t => !late now t) = some t
      rw [Option.filter_eq_some_iff, Core.away_lobby]
      constructor
      · rintro ⟨hp, hps, hsince⟩
        refine ⟨⟨hp, hsince⟩, ?_⟩
        rw [Bool.not_eq_true', late, decide_eq_false_iff_not]
        exact fun hlate => hps ((hmem p).2 ⟨t, hsince, hlate⟩)
      · rintro ⟨⟨hp, hsince⟩, hnot⟩
        refine ⟨hp, fun hps => ?_, hsince⟩
        obtain ⟨t', ht', hlate⟩ := (hmem p).1 hps
        obtain ⟨st, hst, -, rfl⟩ := hsince
        obtain ⟨st', hst', -, rfl⟩ := ht'
        obtain rfl := Option.some.inj (hst.symm.trans hst')
        rw [late, decide_eq_true hlate] at hnot
        cases hnot
    · rw [(Core.sweep_lookup hfold p).2]
      show _ = if (c.lobby.away p).any (late now) = true then none else _
      by_cases hp : p = 0
      · have hnone := (Table.not_mem_iff ..).1 (h.zero hf hl).2.2
        rw [hp, hnone, ite_self]
        split_ifs
        · rfl
        · exact hnone.symm
      · simp only [hgone p hp]
        rfl
  rw [hlobby]
  exact .forget _ now

/-- **Every step of the core is a move of the lobby, or nothing.** -/
theorem CoreStep.follows {a : Act} (hs : CoreStep c a c') (h : Accounted c L) (hw : WellBound c)
    (hf : Formed c) (hn : Numbered c) (hl : Linked c) (hallow : L.Allows c a) :
    (Lobby.system PlayerId RoomId Time 2 late).Follows c.lobby c'.lobby (a.move c) := by
  cases hs with
  | @login sid hsid =>
    have hnew := hw.next_not_known
    have hlobby : Core.lobby _ = c.lobby.enter c.nextPlayerId :=
      Core.lobby_eq (c := { c with
        nextPlayerId := toInt (c.nextPlayerId + 1)
        sessions := c.sessions.modify sid fun ses =>
          { ses with
            playerId := c.nextPlayerId
            token := LoginService.generateToken c.nextPlayerId }
        playerManager := c.playerManager.addPlayer c.nextPlayerId sid
        connectionManager := c.connectionManager.addSession sid })
        (fun _ => Finmap.mem_insert) (fun _ _ => Core.away_lobby.symm) rfl fun _ => rfl
    show Lobby.Step 2 late _ (.enter c.nextPlayerId) _
    rw [hlobby]
    refine .enter (not_or.2 ⟨fun hp => hnew (hw.player_known hp), fun haway => ?_⟩)
    exact hnew (hw.offline_known (Core.isSome_away_lobby.1 haway).2)
  | @wait p hp hq hpop =>
    rcases c.popped_queue p with ⟨-, hfew, hqueue⟩ | ⟨hne, -⟩
    · have hlobby : Core.lobby { c with matchQueue := (c.popped p).2 } = c.lobby.wait p :=
        Core.lobby_eq (fun _ => Iff.rfl) (fun _ _ => Core.away_lobby.symm) hqueue fun _ => rfl
      show Lobby.Step 2 late _ (.wait p) _
      rw [hlobby]
      exact .wait (h.free hw hf hp hq hallow) hfew
    · exact absurd hpop hne
  | @room p hp hq hne _ =>
    rcases c.popped_queue p with ⟨hpop, -⟩ | ⟨-, hmany, htake, hdrop⟩
    · exact absurd hpop hne
    · have hfresh : ∀ x ∈ (c.popped p).1, c.roomManager.playerRoomMap.lookup x = none := fun x hx =>
        (Table.not_mem_iff ..).1
          (h.queued.joined h.introduced hw hp hallow ((hf.popped hp hq).2.1 x hx).2).2
      have hlobby : Core.lobby { c with
          matchQueue := (c.popped p).2
          roomManager := c.roomManager.insertRoom (c.popped p).1 } =
          c.lobby.gather 2 p c.roomManager.nextRoomId := by
        refine Core.lobby_eq (fun _ => Iff.rfl) (fun _ _ => Core.away_lobby.symm) hdrop fun x => ?_
        show (c.roomManager.playerRoomMap.insertNewAll (c.popped p).1 _).lookup x =
          if x ∈ (c.matchQueue.queue ++ [p]).take 2 then _ else _
        rw [Table.lookup_insertNewAll, htake]
        split_ifs with hx
        · rw [hfresh x (htake ▸ hx), Option.getD_none]
        · rfl
      show Lobby.Step 2 late _ (.gather p c.roomManager.nextRoomId) _
      rw [hlobby]
      exact .gather (h.free hw hf hp hq hallow) hmany fun x hx => lt_irrefl _ (hn.map_lt hx)
  | @resume sid p token st rm hsid hst hrm =>
    have hlobby : Core.lobby { c with
        sessions := c.sessions.modify sid fun ses => { ses with playerId := p, token := token }
        playerManager := c.playerManager.addPlayer p sid
        connectionManager := c.connectionManager.addSession sid
        roomManager := rm
        playerStateManager := c.playerStateManager.markOnline p } = c.lobby.back p := by
      refine Core.lobby_eq (fun _ => Finmap.mem_insert) (fun q t => ?_) rfl
        fun _ => congrArg _ (RoomManager.playerRoomMap_mark hrm).1
      rw [Core.offlineSince_resume rfl]
      show _ ↔ (if q = p then none else c.lobby.away q) = some t
      split_ifs with hq
      · simp [hq]
      · rw [Core.away_lobby]
        exact and_congr_right fun _ => and_iff_right hq
    show Lobby.Step 2 late _ (.back p) _
    rw [hlobby]
    exact .back (Core.isSome_away_lobby.2 ⟨hallow.2.2, st, hst.1, hst.2.2⟩)
  | close hses hopen halive hrm => exact h.follows_close hw hf hl (.close hses hopen halive hrm)
  | sweep hnd hmem hfold => exact h.follows_sweep hf hl (.sweep hnd hmem hfold)
  | idle | accept _ | release _ _ _ => rfl

/-- The group of a new room is connected. -/
theorem CoreStep.bound_of_room {p : PlayerId} {ps : List PlayerId} (hs : CoreStep c (.room p ps) c')
    (h : Accounted c L) (hw : WellBound c) (hf : Formed c) (hallow : L.Allows c (.room p ps)) :
    ∀ x ∈ (c.popped p).1, ∃ sid, c.playerManager.players.lookup x = some sid ∧ c.Bound sid x := by
  cases hs with
  | room hp hq _ _ =>
    intro x hx
    have hjoined := h.queued.joined h.introduced hw hp hallow ((hf.popped hp hq).2.1 x hx).2
    obtain ⟨sid, hsid⟩ := Finmap.mem_iff.1 hjoined.1
    exact ⟨sid, hsid, (h.introduced.player hsid).2⟩

end Simulation

/-! ### Runs -/

/-- What an event of the server is to the lobby. -/
def Server.move (s : Server) (e : Event) : Option (Lobby.Move PlayerId RoomId Time) :=
  (s.act e).move s.core

/-- The moves of the lobby in a history, latest first. -/
def History.moves (tr : History) : List (PlayerLobby × Lobby.Move PlayerId RoomId Time) :=
  tr.filterMap fun x => (x.1.move x.2).map fun m => (x.1.core.lobby, m)

/-- Who is told what of rooms, when the event is handled. -/
def Server.told (s : Server) (e : Event) : List (PlayerId × RoomId × List PlayerId) :=
  ((s.move e).map fun m => s.core.lobby.told 2 m).getD []

/-- Who was told what in a history, oldest first, each with the state it was told in. -/
def History.told (tr : History) : List (Server × PlayerId × RoomId × List PlayerId) :=
  tr.reverse.flatMap fun x => (x.1.told x.2).map (Prod.mk x.1)

/-- A RoomCreatedNotify tells a room and its players. -/
def Response.told : Response → Option (RoomId × List PlayerId)
  | .roomCreatedNotify r => some (r.roomId, r.players)
  | _ => none

/-- The RoomCreatedNotify that were sent, each with the session it was sent to. -/
def Server.roomNotices (s : Server) : List (SessionId × Response) :=
  s.sent.filter fun y => y.2.told.isSome

/-- The message tells the room and the group, and its session is open and that of the player. -/
def Server.Tells (x : Server × PlayerId × RoomId × List PlayerId) (y : SessionId × Response) : Prop :=
  x.1.core.Bound y.1 x.2.1 ∧ y.2.told = some x.2.2

section Run

variable {tr : History} {s : Server}

/-- The next event of conforming clients is one that the history allows. -/
theorem allows_of_conforms {s' : Server} {e : Event} (h : server.Run tr s) (hs : server.step s e s')
    (hc : Conforms ((s, e) :: tr)) (hl : tr.logins < 2 ^ 31 - 10000) :
    (tr.ledger s).Allows s.core (s.act e) := by
  have hissued : ∀ x ∈ s.issued, x.2.1 ≠ 0 := fun x hx h0 => by
    have hle := (Server.issued_range h hl x hx).1
    rw [h0] at hle
    exact absurd hle (by decide)
  exact Ledger.allows_of_sends hissued hs.1 hc.1 hc.2.1

/-- A run of conforming clients is a run of the lobby. -/
theorem run_lobby (h : server.Run tr s) (hc : Conforms tr) (hl : tr.logins < 2 ^ 31 - 10000)
    (hr : tr.roomsCreated < 2 ^ 31 - 1) :
    (Lobby.system PlayerId RoomId Time 2 late).Run tr.moves s.core.lobby := by
  refine h.simulate (fun s => s.core.lobby) Server.move ?_
    fun {tr' t e t'} hsuf hrun hs => ?_
  · exact Core.lobby_eq (fun p => iff_of_false Finmap.notMem_empty (Set.notMem_empty p))
      (fun p t => iff_of_false (fun ⟨_, st, hst, _⟩ => by cases hst) fun ht => by cases ht) rfl
      fun p => rfl
  · have hsuf' : tr' <:+ tr := (List.suffix_cons ..).trans hsuf
    have hl' := lt_of_le_of_lt (logins_le_of_suffix hsuf') hl
    have hr' := lt_of_le_of_lt (roomsCreated_le_of_suffix hsuf') hr
    obtain ⟨tr₂, rfl⟩ := hsuf
    have hc' := conforms_of_append hc
    exact (Server.step_core hs).follows (Accounted.of_run hrun hc'.2.2 hl')
      (WellBound.of_run hrun hl') (Formed.of_run hrun) (Numbered.of_run hrun hr')
      (Linked.of_run hrun hl' hr') (allows_of_conforms hrun hs hc' hl')

theorem roomNotices_append {s' : Server} {sent : List (SessionId × Response)}
    (h : s'.sent = s.sent ++ sent) :
    s'.roomNotices = s.roomNotices ++ sent.filter fun y => y.2.told.isSome := by
  rw [Server.roomNotices, h, List.filter_append]
  rfl

theorem filter_told_eq_nil {sent : List (SessionId × Response)} (h : ∀ y ∈ sent, y.2.told = none) :
    (sent.filter fun y => y.2.told.isSome) = [] := by
  refine List.filter_eq_nil_iff.2 fun y hy => ?_
  rw [h y hy]
  exact Bool.false_ne_true

/-- **What an event tells** of rooms is what its move does: each of the group is sent the room and
the group on its own session. -/
theorem told_step {s' : Server} {e : Event} (hs : server.step s e s')
    (hbound : ∀ p ps, s.act e = .room p ps → ∀ x ∈ (s.core.popped p).1,
      s.core.Bound (s.sessionOf x) x) :
    ∃ msgs, s'.roomNotices = s.roomNotices ++ msgs ∧
      List.Forall₂ Server.Tells ((s.told e).map (Prod.mk s)) msgs := by
  have hsilent {sent : List (SessionId × Response)} (hsent : s'.sent = s.sent ++ sent)
      (hnone : ∀ y ∈ sent, y.2.told = none) (hmove : s.told e = []) :
      ∃ msgs, s'.roomNotices = s.roomNotices ++ msgs ∧
        List.Forall₂ Server.Tells ((s.told e).map (Prod.mk s)) msgs :=
    ⟨_, roomNotices_append hsent, by rw [filter_told_eq_nil hnone, hmove]; exact .nil⟩
  have hone {sid : SessionId} {r : Response} (hnone : r.told = none) :
      ∀ y ∈ [(sid, r)], y.2.told = none := List.forall_mem_singleton.2 hnone
  rw [Server.told, Server.move] at hsilent ⊢
  have hcase := Server.handled_of_step hs.2
  generalize s.act e = a at hcase hbound hsilent ⊢
  clear hs
  cases hcase with
  | accept | closed | release | sweep | unregistered =>
    exact hsilent (List.append_nil _).symm (fun y hy => absurd hy List.not_mem_nil) rfl
  | close =>
    refine hsilent (List.append_nil _).symm (fun y hy => absurd hy List.not_mem_nil) ?_
    simp only [Act.move]
    cases s.core.sessions.lookup _ with
    | none => rfl
    | some ses =>
      simp only [Option.bind_some]
      split_ifs <;> rfl
  | loginRefused | login | matchRefused | wait | heartbeat | reconnectRefused | resume | ranking =>
    exact hsilent rfl (hone rfl) rfl
  | chat _ _ =>
    refine hsilent rfl (fun y hy => ?_) rfl
    obtain ⟨p, -, rfl⟩ := List.mem_map.1 hy
    rfl
  | @room sid req now ps hp hq hps hne hres =>
    subst hps
    rcases s.core.popped_queue (toInt req.playerId) with ⟨hpop, -⟩ | ⟨-, -, htake, -⟩
    · exact absurd hpop hne
    · have hgroup : (s.core.lobby.line ++ [toInt req.playerId]).take 2 =
          (s.core.popped (toInt req.playerId)).1 := htake.symm
      have hbound := hbound _ _ rfl
      simp only [Act.move, Option.map_some, Option.getD_some, Lobby.told, hgroup]
      refine ⟨(s.core.popped (toInt req.playerId)).1.map fun p => (s.sessionOf p,
        .roomCreatedNotify { roomId := s.core.roomManager.nextRoomId
                             players := (s.core.popped (toInt req.playerId)).1 }), ?_, ?_⟩
      · refine (roomNotices_append (List.append_assoc ..)).trans (congrArg _ ?_)
        rw [List.filter_append, filter_told_eq_nil (hone rfl), List.nil_append]
        refine List.filter_eq_self.2 fun y hy => ?_
        obtain ⟨p, -, rfl⟩ := List.mem_map.1 hy
        rfl
      · rw [List.map_map, List.forall₂_map_left_iff, List.forall₂_map_right_iff, List.forall₂_same]
        exact fun p hp => ⟨hbound p hp, rfl⟩

/-- What was told is what the moves of the history tell. -/
theorem told_eq_moves (tr : History) :
    tr.told.map Prod.snd = tr.moves.reverse.flatMap fun x => x.1.told 2 x.2 := by
  induction tr with
  | nil => rfl
  | cons x tr ih =>
    have hmoves : History.moves (x :: tr) =
        ((x.1.move x.2).map fun m => (x.1.core.lobby, m)).toList ++ History.moves tr := by
      rw [History.moves, List.filterMap_cons]
      cases x.1.move x.2 <;> rfl
    have htold : History.told (x :: tr) = History.told tr ++ (x.1.told x.2).map (Prod.mk x.1) := by
      rw [History.told, List.reverse_cons, List.flatMap_append, List.flatMap_singleton]
      rfl
    rw [htold, hmoves, List.map_append, ih, List.reverse_append, List.flatMap_append, List.map_map,
      Server.told]
    cases x.1.move x.2 with
    | none => rfl
    | some m => simp

/-- **Everybody in a group is told.** -/
theorem told_of_run (h : server.Run tr s) (hc : Conforms tr) (hl : tr.logins < 2 ^ 31 - 10000) :
    List.Forall₂ Server.Tells tr.told s.roomNotices := by
  induction h with
  | nil => exact .nil
  | @cons tr s s' e hrun hs ih =>
    have hl' := lt_of_le_of_lt (logins_le_of_suffix (List.suffix_cons (s, e) tr)) hl
    have hallow := allows_of_conforms hrun hs hc hl'
    have hcore := Server.step_core hs
    obtain ⟨msgs, hsent, htold⟩ := told_step hs fun p ps hact x hx => by
      rw [hact] at hallow hcore
      obtain ⟨sid, hsid, hbound⟩ := hcore.bound_of_room (Accounted.of_run hrun hc.2.2 hl')
        (WellBound.of_run hrun hl') (Formed.of_run hrun) hallow x hx
      rwa [Server.sessionOf, show s.playerManager.players.lookup x = some sid from hsid,
        Option.getD_some]
    rw [hsent, History.told, List.reverse_cons, List.flatMap_append, List.flatMap_singleton]
    exact List.rel_append (ih hc.2.2 hl') htold

/-- **The server is a lobby.**  A run of clients that follow the simulator, whose counters do not
wrap around, is a run of the lobby with groups of two: its moves are the events that are moves, each in
the lobby of the state it was handled in.  The RoomCreatedNotify that were sent are, in order, one for
each player of each group that was gathered, on the open session that the player then had, with the id
of the room and the group. -/
theorem lobby_refines (h : server.Run tr s) (hc : Conforms tr) (hl : tr.logins < 2 ^ 31 - 10000)
    (hr : tr.roomsCreated < 2 ^ 31 - 1) :
    (Lobby.system PlayerId RoomId Time 2 late).Run tr.moves s.core.lobby ∧
      tr.told.map Prod.snd = (tr.moves.reverse.flatMap fun x => x.1.told 2 x.2) ∧
      List.Forall₂ Server.Tells tr.told s.roomNotices :=
  ⟨run_lobby h hc hl hr, told_eq_moves tr, told_of_run h hc hl⟩

/-- Two players are matched, each is told on its session, and one of them leaves. -/
theorem lobby_refines_pair : ∃ (tr : History) (s : Server), server.Run tr s ∧
    (Lobby.system PlayerId RoomId Time 2 late).Run tr.moves s.core.lobby ∧
    s.core.lobby.away 10001 = some 5 ∧ s.core.lobby.room 10001 = some 1 ∧
    s.roomNotices.map Prod.fst = [0, 1] ∧
    (tr.moves.reverse.flatMap fun x => x.1.told 2 x.2) =
      [(10000, 1, [10000, 10001]), (10001, 1, [10000, 10001])] ∧
    List.Forall₂ Server.Tells tr.told s.roomNotices := by
  obtain ⟨tr, s, h, hc, hl, hr, haway, hroom, hsids, htold⟩ := Server.exists_run
    (Q := fun tr s => Conforms tr ∧ tr.logins < 2 ^ 31 - 10000 ∧ tr.roomsCreated < 2 ^ 31 - 1 ∧
      s.core.lobby.away 10001 = some 5 ∧ s.core.lobby.room 10001 = some 1 ∧
      s.roomNotices.map Prod.fst = [0, 1] ∧
      tr.told.map Prod.snd = [(10000, 1, [10000, 10001]), (10001, 1, [10000, 10001])])
    (Server.pairUp ++ [.close 1 { steady := 5 }]) (by decide +kernel)
  obtain ⟨hrun, hmoves, htells⟩ := lobby_refines h hc hl hr
  exact ⟨tr, s, h, hrun, haway, hroom, hsids, hmoves.symm.trans htold, htells⟩

/-- **Everybody is in one place.**  With clients that follow the simulator no more than one player
waits, and whoever waits is connected; a room has no more than two players, each of whom is connected
or held `Offline`, does not wait, and has no other room. -/
theorem everybody_in_one_place (h : server.Run tr s) (hc : Conforms tr)
    (hl : tr.logins < 2 ^ 31 - 10000) (hr : tr.roomsCreated < 2 ^ 31 - 1) :
    s.matchQueue.size ≤ 1 ∧ (∀ p ∈ s.matchQueue.queue, p ∈ s.playerManager.players) ∧
      ∀ r room, s.roomManager.getRoom r = some room → room.playerIds.length ≤ 2 ∧
        ∀ p ∈ room.playerIds, p ∉ s.matchQueue.queue ∧
          (p ∈ s.playerManager.players ∨ s.core.Offline p) ∧
          ∀ r' room', s.roomManager.getRoom r' = some room' → p ∈ room'.playerIds → r' = r := by
  have hsound := Lobby.Sound.of_run (by decide) (run_lobby h hc hl hr)
  have ha := Accounted.of_run h hc hl
  have hlink := Linked.of_run h hl hr
  refine ⟨Nat.lt_succ_iff.1 hsound.short, fun p hp => (hsound.waiting p hp).1,
    fun r room hroom => ?_⟩
  have hmapped := ha.members r room hroom
  refine ⟨?_, fun p hp => ⟨fun hq => ?_, ?_, fun r' room' hroom' hp' => ?_⟩⟩
  · have hsub : (room.playerIds.toFinset : Set PlayerId) ⊆ {p | s.core.lobby.room p = some r} :=
      fun p hp => hmapped p (List.mem_toFinset.1 hp)
    have hcard := (Set.encard_le_encard hsub).trans (hsound.fits r)
    rw [Set.encard_coe_eq_coe_finsetCard,
      List.toFinset_card_of_nodup ((Formed.of_run h).getRoom hroom).nodup] at hcard
    exact_mod_cast hcard
  · have hnone := (hsound.waiting p hq).2
    rw [show s.core.lobby.room p = some r from hmapped p hp] at hnone
    cases hnone
  · by_cases hon : p ∈ s.playerManager.players
    · exact .inl hon
    · exact .inr (hlink.offline (Finmap.mem_of_lookup_eq_some (hmapped p hp)) hon)
  · exact Option.some.inj ((ha.members r' room' hroom' p hp').symm.trans (hmapped p hp))

/-- Three players, of whom two are matched. -/
theorem everybody_in_one_place_three : ∃ tr s, server.Run tr s ∧ s.matchQueue.queue = [10002] ∧
    10002 ∈ s.playerManager.players ∧
    ∃ room, s.roomManager.getRoom 1 = some room ∧ room.playerIds.length ≤ 2 := by
  obtain ⟨tr, s, h, hc, hl, hr, hqueue, hroom⟩ := Server.exists_run
    (Q := fun tr s => Conforms tr ∧ tr.logins < 2 ^ 31 - 10000 ∧ tr.roomsCreated < 2 ^ 31 - 1 ∧
      s.matchQueue.queue = [10002] ∧ (s.roomManager.getRoom 1).isSome)
    (Server.pairUp ++ [.accept 2 {}, .request 2 (.login { username := [0x63] }) {},
      .request 2 (.match { playerId := 10002 }) {}]) (by decide +kernel)
  obtain ⟨room, hroom⟩ := Option.isSome_iff_exists.1 hroom
  obtain ⟨-, hwaiting, hrooms⟩ := everybody_in_one_place h hc hl hr
  exact ⟨tr, s, h, hqueue, hwaiting 10002 (by rw [hqueue]; exact List.mem_cons_self ..), room, hroom,
    (hrooms 1 room hroom).1⟩

end Run
end GameServer
