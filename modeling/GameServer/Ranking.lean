/-
# The ranking

`handle_ranking_req` copies the records, sorts them by score and sends the first `top_n`.  The
order of the copy is that of a hash map and the order among equal scores is left open by
`std::sort`, so what is sent is not determined by the records; `TopN` says what can be asked of
it.  `sendsTopN_of_ranks` proves it of every list that the sort may leave.

The records are stored under the ids they have, which are `int`s (`Keyed`, `IntKeys`), so there
can be as many as `2 ^ 32`, while `static_cast<int>` keeps their number below `2 ^ 31` only.  From
there on it is at most zero (`toInt_size_le`), and whoever asks for players is sent none: the
answer is right exactly where nobody was asked for or the number is kept (`sendsTopN_iff`).
Nothing stops a connection from logging in so often (`exists_logins`).
-/

import GameServer.Records

namespace GameServer

namespace MemoryPlayerStateRepository

/-- `items` is a ranking of `n` players: as many as there are, if there are fewer, and none if
`n` is negative; each is a stored player with the stored score, none is there twice, the scores
do not increase, and a player who is left out has no greater score than one who is not. -/
structure TopN (r : MemoryPlayerStateRepository) (n : ℤ) (items : List RankingItem) : Prop where
  length : (items.length : ℤ) = max 0 (min n r.states.size)
  stored : ∀ item ∈ items, ∃ st, r.loadPlayerState item.playerId = some st ∧ item.score = st.score
  nodup : (items.map RankingItem.playerId).Nodup
  sorted : items.Pairwise fun a b => b.score ≤ a.score
  greatest : ∀ p st, r.loadPlayerState p = some st → p ∉ items.map RankingItem.playerId →
    ∀ item ∈ items, st.score ≤ item.score

/-- The records are stored under values of `int`. -/
def IntKeys (r : MemoryPlayerStateRepository) : Prop :=
  ∀ p ∈ r.states, -2 ^ 31 ≤ p ∧ p < 2 ^ 31

/-- There are no more records than values of `int`. -/
theorem IntKeys.size_le {r : MemoryPlayerStateRepository} (h : r.IntKeys) :
    r.states.size ≤ 2 ^ 32 := by
  have hsub : r.states.keys ⊆ Finset.Ico (-2 ^ 31 : ℤ) (2 ^ 31) := fun p hp =>
    Finset.mem_Ico.2 (h p (Finmap.mem_keys.1 hp))
  have hcard := Finset.card_le_card hsub
  rw [Int.card_Ico] at hcard
  rw [Table.size]
  omega

/-- **The number of records as an `int`**, where it does not fit. -/
theorem IntKeys.toInt_size_le {r : MemoryPlayerStateRepository} (h : r.IntKeys)
    (hsize : 2 ^ 31 ≤ r.states.size) : toInt r.states.size ≤ 0 := by
  have hle := h.size_le
  rw [toInt, Int.bmod_def]
  omega

theorem map_playerId_filterMap {r : MemoryPlayerStateRepository} (h : r.Keyed)
    {order : List PlayerId} (horder : ∀ p ∈ order, p ∈ r.states) :
    (order.filterMap r.states.lookup).map PlayerState.playerId = order := by
  induction order with
  | nil => rfl
  | cons p order ih =>
    rw [List.forall_mem_cons] at horder
    obtain ⟨st, hst⟩ := Finmap.mem_iff.1 horder.1
    simp only [List.filterMap_cons, hst, List.map_cons, ih horder.2, h p st hst]

/-- **What `get_all_players` returns**: every record once. -/
theorem GetAllPlayers.players {r : MemoryPlayerStateRepository} (h : r.Keyed)
    {all : List PlayerState} (hall : r.GetAllPlayers all) :
    (all.map PlayerState.playerId).Nodup ∧ all.length = r.states.size ∧
      ∀ st, st ∈ all ↔ r.loadPlayerState st.playerId = some st := by
  obtain ⟨order, horder, rfl⟩ := hall
  have hids := map_playerId_filterMap h fun p hp => (horder.mem_iff p).1 hp
  refine ⟨by rw [hids]; exact horder.1, ?_, fun st => ?_⟩
  · rw [← List.length_map (f := PlayerState.playerId), hids, Table.size, ← horder.2,
      List.toFinset_card_of_nodup horder.1]
  · rw [List.mem_filterMap]
    constructor
    · rintro ⟨p, -, hst⟩
      rw [loadPlayerState, h p st hst, hst]
    · exact fun hst => ⟨st.playerId, (horder.mem_iff _).2 (Finmap.mem_of_lookup_eq_some hst), hst⟩

/-- The first `k` of the records in the order of the sort. -/
theorem topN_of_pairwise {r : MemoryPlayerStateRepository} (h : r.Keyed)
    {all players : List PlayerState} (hall : r.GetAllPlayers all) (hperm : players.Perm all)
    (hsorted : players.Pairwise fun a b => b.score ≤ a.score) {n : ℤ} {k : ℕ}
    (hk : (k : ℤ) = max 0 (min n r.states.size)) :
    r.TopN n ((players.take k).map fun st => { playerId := st.playerId, score := st.score }) := by
  obtain ⟨hnodup, hlength, hmem⟩ := hall.players h
  have hids : ((players.take k).map fun st =>
      ({ playerId := st.playerId, score := st.score } : RankingItem)).map RankingItem.playerId =
      (players.take k).map PlayerState.playerId := by
    rw [List.map_map]
    rfl
  constructor
  case length =>
    have hlen : players.length = r.states.size := hperm.length_eq.trans hlength
    rw [List.length_map, List.length_take, ← hk]
    omega
  case stored =>
    intro item hitem
    obtain ⟨st, hst, rfl⟩ := List.mem_map.1 hitem
    exact ⟨st, (hmem st).1 (hperm.subset (List.mem_of_mem_take hst)), rfl⟩
  case nodup =>
    rw [hids]
    exact ((hperm.map _).nodup_iff.2 hnodup).sublist ((List.take_sublist ..).map _)
  case sorted => exact List.pairwise_map.2 (hsorted.sublist (List.take_sublist ..))
  case greatest =>
    intro p st hst hout item hitem
    obtain ⟨st', hst', rfl⟩ := List.mem_map.1 hitem
    -- The record is one of those after the first `k`.
    have hid : st.playerId = p := h p st hst
    have hplayers : st ∈ players.take k ++ players.drop k := by
      rw [List.take_append_drop]
      exact hperm.mem_iff.2 ((hmem st).2 (hid ▸ hst))
    rw [← List.take_append_drop k players, List.pairwise_append] at hsorted
    rcases List.mem_append.1 hplayers with htake | hdrop
    · rw [hids] at hout
      exact absurd (hid ▸ List.mem_map_of_mem htake) hout
    · exact hsorted.2.2 st' hst' st hdrop

end MemoryPlayerStateRepository

namespace RankingService

/-- The request is answered with a ranking of as many players as it asks for, and nothing else
changes. -/
def SendsTopN (s : Server) (sid : SessionId) (req : RankingReq) (players : List PlayerState) : Prop :=
  ∃ items, handleRankingReq s sid req players =
      ({ s with metrics := s.metrics.incrRankingReq } : Server).send sid
        (.rankingResp { items := items }) ∧
    s.playerStateRepository.TopN req.topN items

/-- The players that the handler lists. -/
theorem items_handleRankingReq {s : Server} {sid : SessionId} {req : RankingReq}
    {players : List PlayerState} {items : List RankingItem}
    (h : (handleRankingReq s sid req players).sent =
      s.sent ++ [(sid, .rankingResp { items := items })]) :
    items = (players.take (min (toInt req.topN) (toInt players.length)).toNat).map
      fun st => { playerId := st.playerId, score := st.score } := by
  have heq := List.append_cancel_left (show s.sent ++ _ = s.sent ++ _ from h)
  simpa using heq.symm

/-- There is a list that the sort may leave. -/
theorem exists_ranks (s : Server) : ∃ players, Ranks s players := by
  have horder : s.playerStateRepository.states.Enumerates
      s.playerStateRepository.states.keys.toList :=
    ⟨Finset.nodup_toList _, Finset.toList_toFinset _⟩
  obtain ⟨all, hall⟩ : ∃ all, s.playerStateRepository.GetAllPlayers all := ⟨_, _, horder, rfl⟩
  have hsorted : (all.mergeSort fun a b => decide (b.score ≤ a.score)).Pairwise
      fun a b => decide (b.score ≤ a.score) = true :=
    List.pairwise_mergeSort
      (fun a b c hab hbc => decide_eq_true ((of_decide_eq_true hbc).trans (of_decide_eq_true hab)))
      (fun a b => by simpa using le_total b.score a.score) all
  exact ⟨_, ⟨all, hall, List.mergeSort_perm ..⟩, hsorted.imp of_decide_eq_true⟩

section

variable {s : Server} {players : List PlayerState}

theorem Ranks.length_eq (hr : Ranks s players) (hk : s.playerStateRepository.Keyed) :
    players.length = s.playerStateRepository.states.size := by
  obtain ⟨⟨all, hall, hperm⟩, -⟩ := hr
  exact hperm.length_eq.trans (hall.players hk).2.1

/-- **What is sent is a ranking**, in whatever order the records were met and equal scores were
left, if `static_cast<int>` does not change how many players the handler takes. -/
theorem sendsTopN_of_ranks (hr : Ranks s players) (hk : s.playerStateRepository.Keyed)
    (sid : SessionId) {req : RankingReq}
    (hlen : max 0 (min (toInt req.topN) (toInt players.length)) =
      max 0 (min req.topN s.playerStateRepository.states.size)) : SendsTopN s sid req players := by
  obtain ⟨⟨all, hall, hperm⟩, hsorted⟩ := hr
  refine ⟨_, rfl, MemoryPlayerStateRepository.topN_of_pairwise hk hall hperm hsorted ?_⟩
  rw [Int.toNat_eq_max, max_comm, hlen]

/-- **When what is sent is a ranking**: when nobody is asked for, or there are few enough players
for `int` to count. -/
theorem sendsTopN_iff (hr : Ranks s players) (hk : s.playerStateRepository.Keyed)
    (hint : s.playerStateRepository.IntKeys) (sid : SessionId) {req : RankingReq}
    (hlo : -2 ^ 31 ≤ req.topN) (hhi : req.topN < 2 ^ 31) :
    SendsTopN s sid req players ↔
      req.topN ≤ 0 ∨ s.playerStateRepository.states.size < 2 ^ 31 := by
  have hlen := hr.length_eq hk
  have htop : toInt req.topN = req.topN := toInt_of_lt hlo hhi
  rcases lt_or_ge s.playerStateRepository.states.size (2 ^ 31) with hsize | hsize
  · refine iff_of_true (sendsTopN_of_ranks hr hk sid ?_) (.inr hsize)
    rw [htop, hlen, toInt_of_lt (by omega) (by omega)]
  · -- The number of players has become at most zero, and the handler takes none.
    have hneg := hint.toInt_size_le hsize
    constructor
    · rintro ⟨items, hsend, htopN⟩
      have hitems := items_handleRankingReq (congrArg Server.sent hsend)
      have hlength := htopN.length
      rw [hitems, htop, hlen, Int.toNat_of_nonpos (by omega), List.take_zero, List.map_nil,
        List.length_nil] at hlength
      omega
    · rintro (hnone | hlt)
      · refine sendsTopN_of_ranks hr hk sid ?_
        rw [htop, hlen]
        omega
      · omega

end

end RankingService

namespace Server

/-- There are no more records than logins. -/
theorem size_le_logins {tr : History} {s : Server} (h : server.Run tr s) :
    s.playerStateRepository.states.size ≤ tr.logins := by
  rw [Table.size, keys_of_run h]
  exact Finset.card_image_le.trans (Finset.card_range _).le

/-- There is one record for each login, as long as the ids differ. -/
theorem size_eq_logins {tr : History} {s : Server} (h : server.Run tr s)
    (hn : tr.logins ≤ 2 ^ 32) : s.playerStateRepository.states.size = tr.logins := by
  rw [Table.size, keys_of_run h, Finset.card_image_of_injOn, Finset.card_range]
  intro j hj k hk hjk
  have hids : toInt (10000 + j) = toInt (10000 + k) := hjk
  have hmod : (10000 + (j : ℤ)) % 2 ^ 32 = (10000 + (k : ℤ)) % 2 ^ 32 := by
    rw [← toInt_emod, hids, toInt_emod]
  rw [Finset.mem_coe, Finset.mem_range] at hj hk
  omega

theorem intKeys_of_run {tr : History} {s : Server} (h : server.Run tr s) :
    s.playerStateRepository.IntKeys := by
  intro p hp
  rw [← Finmap.mem_keys, keys_of_run h, Finset.mem_image] at hp
  obtain ⟨j, -, rfl⟩ := hp
  exact toInt_mem _

/-- A connection may log in as often as it likes. -/
theorem exists_logins (n : ℕ) : ∃ (tr : History) (s : Server), server.Run tr s ∧
    s.core.Alive 0 ∧ tr.logins = n := by
  induction n with
  | zero =>
    exact Server.exists_run (Q := fun tr s => s.core.Alive 0 ∧ tr.logins = 0) [.accept 0 {}]
      (by decide +kernel)
  | succ n ih =>
    obtain ⟨tr, s, h, halive, hn⟩ := ih
    have hs : server.step s (.request 0 (.login { username := [0x61] }) {})
        (LoginService.handleLogin (s.received 0 {}) 0 { username := [0x61] } {}) :=
      ⟨⟨(s.alive_iff 0).2 halive, trivial⟩, rfl⟩
    refine ⟨_, _, h.cons hs, (step_core hs).alive (by rintro ⟨⟩) halive, ?_⟩
    rw [logins_cons, hn]
    rfl

end Server

/-- **When a ranking is a correct top-N.**  Whatever records are stored under their ids, a
RankingReq whose `top_n` is an `int` is answered with a ranking of that many of them, and nothing
else changes, exactly when `top_n` is not positive or there are fewer than `2 ^ 31` records.  So it
is in every state the server reaches, and there are no more records there than logins. -/
theorem ranking_top_n_iff {req : RankingReq} (hlo : -2 ^ 31 ≤ req.topN) (hhi : req.topN < 2 ^ 31)
    (sid : SessionId) :
    (∀ (s : Server) (players : List PlayerState), s.playerStateRepository.Keyed →
      s.playerStateRepository.IntKeys → RankingService.Ranks s players →
      (RankingService.SendsTopN s sid req players ↔
        req.topN ≤ 0 ∨ s.playerStateRepository.states.size < 2 ^ 31)) ∧
    ∀ (tr : History) (s : Server) (players : List PlayerState), server.Run tr s →
      RankingService.Ranks s players →
      (RankingService.SendsTopN s sid req players ↔
        req.topN ≤ 0 ∨ s.playerStateRepository.states.size < 2 ^ 31) ∧
      s.playerStateRepository.states.size ≤ tr.logins := by
  have hiff {s : Server} {players : List PlayerState} (hk : s.playerStateRepository.Keyed)
      (hint : s.playerStateRepository.IntKeys) (hr : RankingService.Ranks s players) :=
    RankingService.sendsTopN_iff hr hk hint sid hlo hhi
  refine ⟨fun s players hk hint hr => hiff hk hint hr, fun tr s players h hr => ⟨?_, ?_⟩⟩
  · exact hiff (Server.keyed_of_run h) (Server.intKeys_of_run h) hr
  · exact Server.size_le_logins h

/-- Two matched players, of whom the second has chatted, and a request for one of them. -/
theorem ranking_top_n_iff_one : ∃ (s : Server) (players : List PlayerState),
    RankingService.Ranks s players ∧ RankingService.SendsTopN s 0 { topN := 1 } players := by
  obtain ⟨tr, s, h, hn, horder, hsorted⟩ := Server.exists_run
    (Q := fun tr s => tr.logins = 2 ∧
      s.playerStateRepository.states.Enumerates [10001, 10000] ∧
      ([10001, 10000].filterMap s.playerStateRepository.states.lookup).Pairwise
        fun a b => b.score ≤ a.score)
    (Server.pairUp ++ [.request 1 (.chat { roomId := 1 }) {}]) (by decide +kernel)
  have hr : RankingService.Ranks s _ := ⟨⟨_, ⟨_, horder, rfl⟩, .refl _⟩, hsorted⟩
  obtain ⟨hiff, hsize⟩ :=
    (@ranking_top_n_iff { topN := 1 } (by decide) (by decide) 0).2 tr s _ h hr
  exact ⟨s, _, hr, hiff.2 (.inr (by omega))⟩

/-- **A full ranking is empty.**  After `2 ^ 31` logins there are as many players, and a request
for one of them is answered with none, in whatever order they were sorted. -/
theorem ranking_lists_nobody : ∃ (tr : History) (s : Server) (players : List PlayerState),
    server.Run tr s ∧ s.alive 0 = true ∧ s.playerStateRepository.states.size = 2 ^ 31 ∧
    RankingService.Ranks s players ∧
    RankingService.handleRankingReq s 0 { topN := 1 } players =
      ({ s with metrics := s.metrics.incrRankingReq } : Server).send 0
        (.rankingResp { items := [] }) ∧
    ¬ RankingService.SendsTopN s 0 { topN := 1 } players := by
  obtain ⟨tr, s, h, halive, hn⟩ := Server.exists_logins (2 ^ 31)
  obtain ⟨players, hr⟩ := RankingService.exists_ranks s
  have hk := Server.keyed_of_run h
  have hint := Server.intKeys_of_run h
  have hsize : s.playerStateRepository.states.size = 2 ^ 31 :=
    (Server.size_eq_logins h (by omega)).trans hn
  have hneg := hint.toInt_size_le hsize.ge
  refine ⟨tr, s, players, h, (s.alive_iff 0).2 halive, hsize, hr, ?_, fun hsends => ?_⟩
  · have hnone : (min (toInt 1) (toInt players.length)).toNat = 0 := by
      rw [hr.length_eq hk]
      omega
    simp only [RankingService.handleRankingReq, hnone, List.take_zero, List.map_nil]
  · rcases (RankingService.sendsTopN_iff hr hk hint 0 (by decide) (by decide)).1 hsends with h₁ | h₁
    · exact absurd h₁ (by decide)
    · omega

end GameServer
