/-
# The room a reconnect reports

The room id of a `ReconnectResp` is the one in the player's runtime state.  The close
callback passes the current room to `save_online`, which stores it with `insert`: only
the first close of a player stores it, and a reconnect keeps the state.  A player who
has disconnected before, and gets a room afterwards, therefore keeps the -1 of that time
in the state, and a later reconnect reports -1 instead of the room.

`restored_room_iff` says that this is the only way to go wrong: the reply reports the
current room exactly when no MatchReq of the run made a room for the player at a time
when a runtime state was held and the player had no room (`Core.OutdatesRoom`).
-/

import GameServer.Connectivity

namespace GameServer

/-- The step makes a room for `p`, who has none and whose runtime state is held already. -/
def Core.OutdatesRoom (c : Core) (p : PlayerId) : Act → Prop
  | .room _ ps => p ∈ ps ∧ p ∈ c.playerStateManager.states ∧ p ∉ c.roomManager.playerRoomMap
  | _ => False

instance (c : Core) (p : PlayerId) : (a : Act) → Decidable (c.OutdatesRoom p a)
  | .room _ _ => inferInstanceAs (Decidable (_ ∧ _ ∧ _))
  | .idle | .accept _ | .login _ | .wait _ | .resume .. | .close .. | .release _ | .sweep .. =>
    inferInstanceAs (Decidable False)

namespace Core

variable {c c' : Core} {p : PlayerId}

/-- The runtime state of `p`, if there is one, has the current room. -/
def Current (c : Core) (p : PlayerId) : Prop :=
  ∀ st, c.playerStateManager.states.lookup p = some st →
    st.roomId = c.roomManager.getRoomIdByPlayer p

/-- The runtime state of the player `p` says -1, and `p` has a room. -/
def Outdated (c : Core) (p : PlayerId) : Prop :=
  p ≠ 0 ∧ ∃ st r, c.playerStateManager.states.lookup p = some st ∧ st.roomId = -1 ∧
    c.roomManager.playerRoomMap.lookup p = some r ∧ r ≠ -1

/-- `p` is a player who was swept: nothing is held of it, and no session is bound to it. -/
def Swept (c : Core) (p : PlayerId) : Prop :=
  p ≠ 0 ∧ c.Known p ∧ p ∉ c.playerStateManager.states ∧ p ∉ c.playerManager.players

theorem getRoomIdByPlayer_congr {m m' : RoomManager}
    (h : m'.playerRoomMap.lookup p = m.playerRoomMap.lookup p) :
    m'.getRoomIdByPlayer p = m.getRoomIdByPlayer p := by
  rw [RoomManager.getRoomIdByPlayer, RoomManager.getRoomIdByPlayer, h]

/-- **Only such a step outdates the state.** -/
theorem Current.step {a : Act} (h : c.Current p) (hC : ¬ c.OutdatesRoom p a)
    (hs : CoreStep c a c') : c'.Current p := by
  cases hs with
  | room _ _ _ _ =>
    intro st hst
    have hst : c.playerStateManager.states.lookup p = some st := hst
    rw [h st hst]
    refine (getRoomIdByPlayer_congr ?_).symm
    rw [RoomManager.lookup_insertRoom_map]
    split_ifs with hp
    · -- With a state held, the player must have had the room before.
      obtain ⟨r, hr⟩ : ∃ r, c.roomManager.playerRoomMap.lookup p = some r := by
        by_contra hno
        refine hC ⟨hp, Finmap.mem_of_lookup_eq_some hst, fun hmem => hno ?_⟩
        exact Finmap.mem_iff.1 hmem
      rw [hr, Option.getD_some]
    · rfl
  | resume _ _ hrm =>
    intro st hst
    have hroom := getRoomIdByPlayer_congr (p := p)
      (congrArg (fun m => m.lookup p) (RoomManager.playerRoomMap_mark hrm).1)
    rw [PlayerStateManager.lookup_markOnline] at hst
    rw [hroom]
    split_ifs at hst with hq
    · obtain ⟨st₀, hst₀, rfl⟩ := Option.map_eq_some_iff.1 hst
      exact h st₀ (hq ▸ hst₀)
    · exact h st hst
  | close _ _ _ hrm =>
    intro st hst
    have hroom := getRoomIdByPlayer_congr (p := p)
      (congrArg (fun m => m.lookup p) (RoomManager.playerRoomMap_mark hrm).1)
    rw [PlayerStateManager.lookup_disconnect] at hst
    rw [hroom]
    split_ifs at hst with hq
    · obtain rfl := Option.some.inj hst
      subst hq
      dsimp only
      cases hold : c.playerStateManager.states.lookup _ with
      | none => rfl
      | some st₀ => exact h st₀ hold
    · exact h st hst
  | sweep _ _ hfold =>
    intro st hst
    obtain ⟨hstates, hmap⟩ := sweep_lookup hfold p
    rw [hstates] at hst
    split_ifs at hst with hps
    rw [if_neg hps] at hmap
    rw [h st hst, getRoomIdByPlayer_congr hmap]
  | idle | accept _ | login _ | wait _ _ _ | release _ _ _ => exact h

/-- An outdated state stays outdated until a sweep takes it away. -/
theorem Outdated.step {a : Act} (h : c.Outdated p) (hw : WellBound c) (hs : CoreStep c a c') :
    c'.Outdated p ∨ c'.Swept p := by
  obtain ⟨hp, st, r, hst, hroom, hmap, hr⟩ := h
  cases hs with
  | room _ _ _ _ =>
    refine .inl ⟨hp, st, r, hst, hroom, ?_, hr⟩
    rw [RoomManager.lookup_insertRoom_map, hmap, Option.getD_some, ite_self]
  | resume _ _ hrm =>
    refine .inl ⟨hp, ?_⟩
    simp only [(RoomManager.playerRoomMap_mark hrm).1, PlayerStateManager.lookup_markOnline]
    split_ifs with hq
    · rw [← hq, hst]
      exact ⟨_, r, rfl, hroom, hmap, hr⟩
    · exact ⟨st, r, hst, hroom, hmap, hr⟩
  | close _ _ _ hrm =>
    refine .inl ⟨hp, ?_⟩
    simp only [(RoomManager.playerRoomMap_mark hrm).1, PlayerStateManager.lookup_disconnect]
    split_ifs with hq
    · rw [← hq, hst]
      exact ⟨_, r, rfl, hroom, hmap, hr⟩
    · exact ⟨st, r, hst, hroom, hmap, hr⟩
  | sweep _ hmem hfold =>
    obtain ⟨hstates, hmaps⟩ := sweep_lookup hfold p
    split_ifs at hstates hmaps with hps
    · refine .inr ⟨hp, ?_, (Table.not_mem_iff ..).2 hstates, fun hin => ?_⟩
      · rw [sweep_frame hfold]
        exact hw.state_known (Finmap.mem_of_lookup_eq_some hst)
      · rw [sweep_frame hfold] at hin
        obtain ⟨t, ht, -⟩ := (hmem p).1 hps
        exact hw.online hin (offline_iff.2 ⟨t, ht⟩)
    · exact .inl ⟨hp, st, r, hstates.trans hst, hroom, hmaps.trans hmap, hr⟩
  | idle | accept _ | login _ | wait _ _ _ | release _ _ _ =>
    exact .inl ⟨hp, st, r, hst, hroom, hmap, hr⟩

/-- A player who was swept does not come back. -/
theorem Swept.step {a : Act} (h : c.Swept p) (hw : WellBound c) (hr : LoginInRange c a)
    (hs : CoreStep c a c') : c'.Swept p := by
  obtain ⟨hp, hknown, hst, hpl⟩ := h
  refine ⟨hp, hknown.step hr hs, ?_⟩
  cases hs with
  | login _ =>
    refine ⟨hst, fun hin => ?_⟩
    rcases Finmap.mem_insert.1 hin with rfl | hin
    · exact hw.next_not_known hknown
    · exact hpl hin
  | resume _ hst' _ =>
    have hne : p ≠ _ := fun e => hst (e ▸ Finmap.mem_of_lookup_eq_some hst'.1)
    exact ⟨mt (Table.mem_modify ..).1 hst,
      mt (fun hin => (Finmap.mem_insert.1 hin).resolve_left hne) hpl⟩
  | @close sid ses _ _ hses hopen _ _ =>
    have hne : p ≠ ses.playerId := fun e =>
      hpl (Finmap.mem_of_lookup_eq_some (hw.bound ⟨ses, hses, hopen, e.symm⟩ hp))
    refine ⟨fun hin => ?_, fun hin => hpl (Finmap.mem_erase.1 hin).2⟩
    exact ((PlayerStateManager.mem_disconnect ..).1 hin).elim hne hst
  | sweep _ _ hfold =>
    have hplayers : c'.playerManager = c.playerManager := by rw [sweep_frame hfold]
    exact ⟨fun hin => hst ((mem_states_sweep hfold p).1 hin).2, hplayers ▸ hpl⟩
  | idle | accept _ | wait _ _ _ | room _ _ _ _ | release _ _ _ => exact ⟨hst, hpl⟩

/-- A step that outdates a current state. -/
theorem Current.outdated {a : Act} (h : c.Current p) (hf : Formed c)
    (hnext : c.roomManager.nextRoomId ≠ -1) (hC : c.OutdatesRoom p a) (hs : CoreStep c a c') :
    c'.Outdated p := by
  cases hs with
  | room hp hq _ _ =>
    obtain ⟨hps, hmem, hmap⟩ := hC
    obtain ⟨st, hst⟩ := Finmap.mem_iff.1 hmem
    have hnone := (Table.not_mem_iff ..).1 hmap
    refine ⟨(((hf.popped hp hq).2.1 p hps).1).ne', st, c.roomManager.nextRoomId, hst, ?_, ?_, hnext⟩
    · rw [h st hst, RoomManager.getRoomIdByPlayer, hnone, Option.getD_none]
    · rw [RoomManager.lookup_insertRoom_map, if_pos hps, hnone, Option.getD_none]
  | _ => exact hC.elim

end Core

/-- The room ids in the states of a run that outdates none of them. -/
theorem current_of_run {tr : History} {s : Server} (h : server.Run tr s) {p : PlayerId}
    (hC : ∀ x ∈ tr, ¬ x.1.core.OutdatesRoom p (x.1.act x.2)) : s.core.Current p :=
  core_invariant (P := fun c => c.Current p) (C := fun c a => ¬ c.OutdatesRoom p a)
    (fun st hst => by simp at hst) (fun hP hC hs => hP.step hC hs) h hC

/-- After a step that outdates the state of `p`, it is outdated for good. -/
theorem outdated_of_run {tr : History} {s : Server} (h : server.Run tr s)
    (hl : tr.logins < 2 ^ 31 - 10000) (hr : tr.roomsCreated < 2 ^ 31 - 1) {p : PlayerId}
    (hC : ∃ x ∈ tr, x.1.core.OutdatesRoom p (x.1.act x.2)) :
    s.core.Outdated p ∨ s.core.Swept p := by
  induction h with
  | nil =>
    obtain ⟨x, hx, -⟩ := hC
    exact absurd hx List.not_mem_nil
  | @cons tr s s' e hrun hs ih =>
    have hl' : History.logins tr < 2 ^ 31 - 10000 :=
      lt_of_le_of_lt (logins_le_of_suffix (List.suffix_cons ..)) hl
    have hr' : History.roomsCreated tr < 2 ^ 31 - 1 :=
      lt_of_le_of_lt (roomsCreated_le_of_suffix (List.suffix_cons ..)) hr
    have hw := WellBound.of_run hrun hl'
    by_cases hold : ∃ x ∈ tr, x.1.core.OutdatesRoom p (x.1.act x.2)
    · rcases ih hl' hr' hold with hout | hswept
      · exact hout.step hw (Server.step_core hs)
      · exact .inr (hswept.step hw (loginsInRange (hrun.cons hs) hl (s, e) (List.mem_cons_self ..))
          (Server.step_core hs))
    · -- The step just taken is the first of its kind, so the state was current.
      have hold : ∀ x ∈ tr, ¬ x.1.core.OutdatesRoom p (x.1.act x.2) :=
        fun x hx hout => hold ⟨x, hx, hout⟩
      obtain ⟨x, hx, hout⟩ := hC
      rcases List.mem_cons.1 hx with rfl | hx
      · refine .inl ((current_of_run hrun hold).outdated (Formed.of_run hrun) ?_ hout
          (Server.step_core hs))
        have hnext := nextRoomId_eq hrun hr'
        exact fun e => by
          rw [show s.core.roomManager.nextRoomId = s.roomManager.nextRoomId from rfl, hnext] at e
          omega
      · exact absurd hout (hold x hx)

/-- **When a reconnect reports the current room.**  An accepted ReconnectReq for `p`
reports the room `p` is mapped to, if no MatchReq of the run made a room for `p` while a
runtime state of `p` was held and `p` had no room.  As long as neither counter wraps around,
it does so in no other case. -/
theorem restored_room_iff {tr : History} {s s' : Server} (h : server.Run tr s)
    {sid : SessionId} {req : ReconnectReq} {now : Instant}
    (hs : server.step s (.request sid (.reconnect req) now) s') {p : PlayerId}
    (hp : toInt req.playerId = p) {roomId : RoomId} (hacc : s.Accepts s' sid p roomId) :
    ((∀ x ∈ tr, ¬ x.1.core.OutdatesRoom p (x.1.act x.2)) →
        roomId = s'.roomManager.getRoomIdByPlayer p) ∧
      (tr.logins < 2 ^ 31 - 10000 → tr.roomsCreated < 2 ^ 31 - 1 →
        roomId = s'.roomManager.getRoomIdByPlayer p →
          ∀ x ∈ tr, ¬ x.1.core.OutdatesRoom p (x.1.act x.2)) := by
  subst hp
  obtain ⟨st, hst, rfl⟩ := (Server.accepts_iff hs roomId).1 hacc
  have hmap : s'.roomManager.getRoomIdByPlayer (toInt req.playerId) =
      s.roomManager.getRoomIdByPlayer (toInt req.playerId) := by
    have hstep := Server.step_core hs
    rw [(Server.act_eq_resume_iff hs).1 ⟨_, hacc⟩] at hstep
    exact Core.getRoomIdByPlayer_congr
      (congrArg (fun m => m.lookup (toInt req.playerId)) hstep.playerRoomMap_resume)
  rw [hmap]
  refine ⟨fun hC => current_of_run h hC st hst.1, fun hl hr heq x hx hout => ?_⟩
  rcases outdated_of_run h hl hr ⟨x, hx, hout⟩ with ⟨-, st', r, hst', hroom, hlk, hne⟩ | hswept
  · obtain rfl := Option.some.inj (hst.1.symm.trans hst')
    have hcur : s.roomManager.getRoomIdByPlayer (toInt req.playerId) = r := by
      rw [RoomManager.getRoomIdByPlayer,
        show s.roomManager.playerRoomMap.lookup (toInt req.playerId) = some r from hlk,
        Option.getD_some]
    rw [hcur, hroom] at heq
    exact hne heq.symm
  · exact hswept.2.2.1 (Finmap.mem_of_lookup_eq_some hst.1)

/-- A player who disconnects for the first time while in room 1. -/
theorem restored_room_iff_first : ∃ tr s s', server.Run tr s ∧ s.Accepts s' 2 10000 1 ∧
    1 = s'.roomManager.getRoomIdByPlayer 10000 := by
  obtain ⟨tr, s, s', h, hs, hacc, hC⟩ := Server.exists_step
    (Q := fun tr s s' => s.Accepts s' 2 10000 1 ∧
      ∀ x ∈ tr, ¬ x.1.core.OutdatesRoom 10000 (x.1.act x.2))
    (Server.pairUp ++ [.close 0 {}, .accept 2 {}])
    (.request 2 (.reconnect { playerId := 10000, token := ascii "token_10000" }) {})
    (by decide +kernel)
  exact ⟨tr, s, s', h, hacc, (restored_room_iff h hs (by decide) hacc).1 hC⟩

/-- **A reconnect that does not report the room.**  A player disconnects and reconnects,
is then matched into room 1, disconnects again, and is told room -1. -/
theorem reports_no_room : ∃ tr s s', server.Run tr s ∧ (∀ x ∈ tr, x.2.onOpen x.1) ∧
    server.step s (.request 3 (.reconnect
      { playerId := 10000, token := ascii "token_10000" }) {}) s' ∧
    s.Accepts s' 3 10000 (-1) ∧ s'.roomManager.getRoomIdByPlayer 10000 = 1 := by
  obtain ⟨tr, s, s', h, hs, hopen, hacc, hroom⟩ := Server.exists_step
    (Q := fun tr s s' => (∀ x ∈ tr, x.2.onOpen x.1) ∧ s.Accepts s' 3 10000 (-1) ∧
      s'.roomManager.getRoomIdByPlayer 10000 = 1)
    [.accept 0 {}, .request 0 (.login { username := [0x61] }) {}, .close 0 {}, .accept 1 {},
      .request 1 (.reconnect { playerId := 10000, token := ascii "token_10000" }) {},
      .accept 2 {}, .request 2 (.login { username := [0x62] }) {},
      .request 1 (.match { playerId := 10000 }) {}, .request 2 (.match { playerId := 10001 }) {},
      .close 1 {}, .accept 3 {}]
    (.request 3 (.reconnect { playerId := 10000, token := ascii "token_10000" }) {})
    (by decide +kernel)
  exact ⟨tr, s, s', h, hopen, hs, hacc, hroom⟩

end GameServer
