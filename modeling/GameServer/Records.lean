/-
# Who writes the player records

Three handlers write to the repository: a login stores a new record, `create_room` stores
the id of the room in the records of its players, and a chat adds to the score of its
sender (`repository_step`).  Nothing else touches it; the close callback, `check_timeout`,
`check_reconnect_timeout` and the reconnect handler do not.  A record is stored under the
player id it has (`keyed_of_run`), so `create_room` writes each record back where it found
it, and the ids with a record are those the logins drew (`keys_of_run`).
-/

import GameServer.Runs

namespace GameServer

namespace MemoryPlayerStateRepository

/-- Every record is stored under its own player id. -/
def Keyed (r : MemoryPlayerStateRepository) : Prop :=
  ∀ p st, r.states.lookup p = some st → st.playerId = p

theorem Keyed.savePlayerState {r : MemoryPlayerStateRepository} (h : r.Keyed) (st : PlayerState) :
    (r.savePlayerState st).Keyed := by
  intro p st' hlk
  rw [MemoryPlayerStateRepository.savePlayerState, Table.lookup_insert'] at hlk
  split_ifs at hlk with hp
  · rw [← Option.some.inj hlk, hp]
  · exact h p st' hlk

theorem lookup_updateScore (r : MemoryPlayerStateRepository) (p q : PlayerId) (score : ℤ) :
    (r.updateScore p score).states.lookup q =
      if q = p then (r.states.lookup p).map fun st => { st with score := score }
      else r.states.lookup q := Table.lookup_modify ..

theorem Keyed.updateScore {r : MemoryPlayerStateRepository} (h : r.Keyed) (p : PlayerId) (score : ℤ) :
    (r.updateScore p score).Keyed := by
  intro q st hlk
  rw [lookup_updateScore] at hlk
  split_ifs at hlk with hq
  · obtain ⟨st₀, hst₀, rfl⟩ := Option.map_eq_some_iff.1 hlk
    exact hq ▸ h p st₀ hst₀
  · exact h q st hlk

/-- The loop body of `saveRoomId`. -/
theorem lookup_saveRoomId_cons {r : MemoryPlayerStateRepository} (h : r.Keyed) (roomId : RoomId)
    (p : PlayerId) : ∃ r₁ : MemoryPlayerStateRepository, r₁.Keyed ∧
      (∀ q, r₁.states.lookup q =
        if q = p then (r.states.lookup p).map fun st => { st with roomId := roomId }
        else r.states.lookup q) ∧
      ∀ ps, Server.saveRoomId r roomId (p :: ps) = Server.saveRoomId r₁ roomId ps := by
  cases hst : r.loadPlayerState p with
  | none =>
    refine ⟨r, h, fun q => ?_, fun ps => ?_⟩
    · have hst : r.states.lookup p = none := hst
      split_ifs with hq
      · rw [hq, hst, Option.map_none]
      · rfl
    · simp only [Server.saveRoomId, List.foldl_cons, hst]
  | some st =>
    refine ⟨r.savePlayerState { st with roomId := roomId }, h.savePlayerState _, fun q => ?_,
      fun ps => ?_⟩
    · have hst : r.states.lookup p = some st := hst
      have hkey : st.playerId = p := h p st hst
      simp only [MemoryPlayerStateRepository.savePlayerState, Table.lookup_insert', hkey, hst,
        Option.map_some]
    · simp only [Server.saveRoomId, List.foldl_cons, hst]

/-- **The records after a room was made**: those of its players have its id. -/
theorem lookup_saveRoomId {r : MemoryPlayerStateRepository} (h : r.Keyed) (roomId : RoomId)
    (ps : List PlayerId) :
    (Server.saveRoomId r roomId ps).Keyed ∧ ∀ q, (Server.saveRoomId r roomId ps).states.lookup q =
      if q ∈ ps then (r.states.lookup q).map fun st => { st with roomId := roomId }
      else r.states.lookup q := by
  induction ps generalizing r with
  | nil => exact ⟨h, fun q => (if_neg List.not_mem_nil).symm⟩
  | cons p ps ih =>
    obtain ⟨r₁, hkeyed, hlk, heq⟩ := lookup_saveRoomId_cons h roomId p
    obtain ⟨hkeyed', hlk'⟩ := ih hkeyed
    rw [heq]
    refine ⟨hkeyed', fun q => ?_⟩
    rw [hlk', hlk]
    by_cases hq : q = p
    · subst hq
      simp only [if_true, List.mem_cons, true_or, Option.map_map, Function.comp_def, ite_self]
    · simp only [hq, if_false, List.mem_cons, false_or]

end MemoryPlayerStateRepository

namespace Server

theorem repository_scored (s : Server) (p : PlayerId) :
    s.scored p = s.playerStateRepository ∨
      ∃ q score, s.scored p = s.playerStateRepository.updateScore q score := by
  unfold scored RankingService.addScore
  split
  · exact .inr ⟨_, _, rfl⟩
  · exact .inl rfl

/-- **The repository after a step.** -/
theorem repository_step {s s' : Server} {e : Event} (h : server.step s e s') :
    ((s.act e).isLogin = false ∧ (s.act e).isRoom = false ∧
        (s'.playerStateRepository = s.playerStateRepository ∨ ∃ p score,
          s'.playerStateRepository = s.playerStateRepository.updateScore p score)) ∨
      (∃ sid st, s.act e = .login sid ∧ st.playerId = s.nextPlayerId ∧ st.online = true ∧
        st.roomId = -1 ∧ s'.playerStateRepository = s.playerStateRepository.savePlayerState st) ∨
      ∃ p ps, s.act e = .room p ps ∧ s'.playerStateRepository =
        saveRoomId s.playerStateRepository s.roomManager.nextRoomId ps := by
  have hcase := handled_of_step h.2
  generalize s.act e = a at hcase ⊢
  clear h
  cases hcase with
  | @login sid req now =>
    exact .inr (.inl ⟨sid, {
      playerId := s.nextPlayerId
      name := req.username
      score := 0
      online := true
      roomId := -1
      lastLoginTimeMs := now.system.tdiv (10 ^ 6) }, rfl, rfl, rfl, rfl, rfl⟩)
  | room => exact .inr (.inr ⟨_, _, rfl, rfl⟩)
  | chat => exact .inl ⟨rfl, rfl, repository_scored s _⟩
  | _ => exact .inl ⟨rfl, rfl, .inl rfl⟩

/-- Every record is stored under its own player id, at the end of every run. -/
theorem keyed_of_run {tr : History} {s : Server} (h : server.Run tr s) :
    s.playerStateRepository.Keyed := by
  induction h with
  | nil => exact fun p st hst => by cases hst
  | cons _ hs ih =>
    rcases repository_step hs with ⟨-, -, heq | ⟨p, score, heq⟩⟩ | ⟨_, st, -, -, -, -, heq⟩ |
      ⟨_, ps, -, heq⟩ <;> rw [heq]
    · exact ih
    · exact ih.updateScore p score
    · exact ih.savePlayerState st
    · exact (MemoryPlayerStateRepository.lookup_saveRoomId ih _ ps).1

/-- **Who has a record after a step**: a login adds the id it draws. -/
theorem keys_step {tr : History} {s s' : Server} {e : Event} (h : server.Run tr s)
    (hs : server.step s e s') : s'.playerStateRepository.states.keys =
      if (s.act e).isLogin then insert s.nextPlayerId s.playerStateRepository.states.keys
      else s.playerStateRepository.states.keys := by
  ext p
  rcases repository_step hs with ⟨hlogin, -, heq | ⟨q, score, heq⟩⟩ |
    ⟨sid, st, hact, hid, -, -, heq⟩ | ⟨q, ps, hact, heq⟩ <;> rw [heq]
  · rw [hlogin, if_neg Bool.false_ne_true]
  · rw [hlogin, if_neg Bool.false_ne_true, Finmap.mem_keys, Finmap.mem_keys]
    exact Table.mem_modify ..
  · rw [hact, Act.isLogin, if_pos rfl, Finset.mem_insert, Finmap.mem_keys, Finmap.mem_keys, ← hid]
    exact Finmap.mem_insert
  · have hlogin : (s.act e).isLogin = false := by rw [hact]; rfl
    rw [hlogin, if_neg Bool.false_ne_true, Finmap.mem_keys, Finmap.mem_keys, Table.mem_iff_isSome,
      Table.mem_iff_isSome, (MemoryPlayerStateRepository.lookup_saveRoomId (keyed_of_run h) _ ps).2]
    split_ifs
    · rw [Option.isSome_map]
    · rfl

/-- **Who has a record after a run**: the ids its logins drew. -/
theorem keys_of_run {tr : History} {s : Server} (h : server.Run tr s) :
    s.playerStateRepository.states.keys =
      (Finset.range tr.logins).image fun j : ℕ => toInt (10000 + j) := by
  induction h with
  | nil => rfl
  | cons hrun hs ih =>
    rw [keys_step hrun hs, logins_cons, ih, nextPlayerId_eq_toInt hrun]
    split_ifs
    · rw [Finset.range_add_one, Finset.image_insert]
    · rfl

end Server
end GameServer
