/-
# What a player's score counts

A record has the name and the time of the player's login and a score, which `handle_chat` adds
one to.  `add_score` reads the score and stores it back, and `create_room` stores whole records
to change their `room_id`; the session a chat arrives on may be rebound from one chat to the
next.  `profile_step` says what a step does to these three fields of every record: a chat on a
session with the player's id adds one, the login that draws the id writes them, and nothing else
touches them.  So the score is the number of those chats (`scores_exact`): before its login no
session has the id, since an id can only be met once it is issued (`known_of_chats`).
-/

import GameServer.Binding
import GameServer.PlayerRecords

namespace GameServer

namespace MemoryPlayerStateRepository

/-- The score, the name and the time of the login in the record of `p`. -/
def profile (r : MemoryPlayerStateRepository) (p : PlayerId) : Option (ℤ × Bytes × ℤ) :=
  (r.loadPlayerState p).map fun st => (st.score, st.name, st.lastLoginTimeMs)

theorem profile_savePlayerState (r : MemoryPlayerStateRepository) (st : PlayerState) (q : PlayerId) :
    (r.savePlayerState st).profile q =
      if q = st.playerId then some (st.score, st.name, st.lastLoginTimeMs) else r.profile q := by
  rw [profile, loadPlayerState, savePlayerState, Table.lookup_insert']
  split_ifs <;> rfl

theorem profile_updateScore (r : MemoryPlayerStateRepository) (p q : PlayerId) (score : ℤ) :
    (r.updateScore p score).profile q =
      if q = p then (r.profile q).map fun x => (score, x.2) else r.profile q := by
  rw [profile, loadPlayerState, lookup_updateScore]
  split_ifs with hq
  · rw [hq, profile, loadPlayerState, Option.map_map, Option.map_map]
    rfl
  · rfl

/-- `create_room` stores the records back with another room. -/
theorem profile_saveRoomId {r : MemoryPlayerStateRepository} (h : r.Keyed) (roomId : RoomId)
    (ps : List PlayerId) (q : PlayerId) :
    (Server.saveRoomId r roomId ps).profile q = r.profile q := by
  rw [profile, loadPlayerState, (lookup_saveRoomId h roomId ps).2]
  split_ifs
  · rw [Option.map_map, profile, loadPlayerState]
    rfl
  · rfl

end MemoryPlayerStateRepository

namespace Server

/-- The event is a ChatReq on a session whose `player_id_` is `p`. -/
def chatsAs (s : Server) (p : PlayerId) : Event → Bool
  | .request sid (.chat _) _ => (s.session sid).playerId = p
  | _ => false

/-- The id a login draws, the name it gives and the time at which it is handled. -/
def loggedIn (s : Server) : Event → Option (PlayerId × Bytes × ℤ)
  | .request _ (.login req) now =>
    if req.username.isEmpty then none
    else some (s.nextPlayerId, req.username, now.system.tdiv (10 ^ 6))
  | _ => none

end Server

/-- The number of ChatReqs handled on sessions whose `player_id_` was `p` at that moment. -/
def History.chats (tr : History) (p : PlayerId) : ℕ := tr.countP fun x => x.1.chatsAs p x.2

theorem chats_cons (tr : History) (s : Server) (e : Event) (p : PlayerId) :
    History.chats ((s, e) :: tr) p = tr.chats p + if s.chatsAs p e then 1 else 0 :=
  List.countP_cons ..

namespace Server

/-- A chat adds one to the score of its sender. -/
theorem profile_scored (s : Server) (p q : PlayerId) : (s.scored p).profile q =
    if p = q then (s.playerStateRepository.profile q).map fun x => (toInt (x.1 + 1), x.2)
    else s.playerStateRepository.profile q := by
  unfold scored RankingService.addScore
  cases hst : s.playerStateRepository.loadPlayerState p with
  | none =>
    split_ifs with hq
    · subst hq
      simp [MemoryPlayerStateRepository.profile, hst]
    · rfl
  | some st =>
    dsimp only
    rw [MemoryPlayerStateRepository.profile_updateScore]
    by_cases hq : q = p
    · subst hq
      simp [MemoryPlayerStateRepository.profile, hst]
    · rw [if_neg hq, if_neg (Ne.symm hq)]

/-- A login that is accepted is the act of logging in. -/
theorem loggedIn_isSome_iff (s : Server) (e : Event) :
    (s.loggedIn e).isSome = (s.act e).isLogin := by
  cases e with
  | request sid req now =>
    cases req with
    | login req =>
      simp only [loggedIn, act]
      split_ifs <;> rfl
    | «match» req =>
      simp only [loggedIn, act]
      split_ifs <;> rfl
    | reconnect req =>
      rcases act_reconnect s sid req now with ⟨-, hact⟩ | ⟨-, hact⟩ <;> rw [hact] <;> rfl
    | chat req | heartbeat req | ranking req players | unregistered msgId => rfl
  | close sid now =>
    simp only [loggedIn, act]
    split_ifs <;> rfl
  | accept sid now | release sid | sweep order now => rfl

/-- The id it draws is the next one. -/
theorem eq_nextPlayerId_of_loggedIn {s : Server} {e : Event} {p : PlayerId} {name : Bytes}
    {time : ℤ} (h : s.loggedIn e = some (p, name, time)) : p = s.nextPlayerId := by
  unfold loggedIn at h
  split at h
  · split_ifs at h
    exact (congrArg Prod.fst (Option.some.inj h)).symm
  · cases h

/-- **The records after a step**: a chat adds to the score of its sender, a login writes the
record of the id it draws, and no other step changes a score, a name or a login time. -/
theorem profile_step {s s' : Server} {e : Event} (hk : s.playerStateRepository.Keyed)
    (hs : server.step s e s') (q : PlayerId) : s'.playerStateRepository.profile q =
      if s.chatsAs q e then
        (s.playerStateRepository.profile q).map fun x => (toInt (x.1 + 1), x.2)
      else match s.loggedIn e with
        | some (p, name, time) =>
          if q = p then some (0, name, time) else s.playerStateRepository.profile q
        | none => s.playerStateRepository.profile q := by
  have hcase := handled_of_step hs.2
  generalize s.act e = a at hcase
  clear hs
  cases hcase with
  | loginRefused hu =>
    rw [loggedIn, if_pos hu]
    rfl
  | login hu =>
    rw [loggedIn, if_neg (Bool.eq_false_iff.1 hu)]
    exact MemoryPlayerStateRepository.profile_savePlayerState ..
  | room => exact MemoryPlayerStateRepository.profile_saveRoomId hk ..
  | chat =>
    refine (s.profile_scored _ q).trans ?_
    simp only [chatsAs, loggedIn, decide_eq_true_eq]
  | _ => rfl

end Server

/-! ### Over a run -/

/-- Who has chatted has an id that was met, so no session chats under an id that is yet to be
issued. -/
theorem known_of_chats {tr : History} {s : Server} (h : server.Run tr s)
    (hn : tr.logins < 2 ^ 31 - 10000) {p : PlayerId} (hp : tr.chats p ≠ 0) : s.core.Known p := by
  induction h with
  | nil => exact absurd rfl hp
  | @cons tr s s' e hrun hs ih =>
    have hn' : History.logins tr < 2 ^ 31 - 10000 :=
      lt_of_le_of_lt (logins_le_of_suffix (List.suffix_cons ..)) hn
    have hrange := loginsInRange (hrun.cons hs) hn (s, e) (List.mem_cons_self ..)
    have hknown : s.core.Known p := by
      by_cases hprev : History.chats tr p = 0
      · -- The last step is the first chat, on a session that has the id.
        rw [chats_cons, hprev, Nat.zero_add] at hp
        have hchat : s.chatsAs p e = true := by
          by_contra hno
          exact hp (if_neg hno)
        unfold Server.chatsAs at hchat
        split at hchat
        · rename_i sid req now
          obtain ⟨ses, hses, -⟩ := (s.alive_iff sid).1 hs.1.1
          have hses : s.sessions.lookup sid = some ses := hses
          have hid := of_decide_eq_true hchat
          rw [Server.session, hses, Option.getD_some] at hid
          exact hid ▸ (WellBound.of_run hrun hn').session_known hses
        · cases hchat
      · exact ih hn' hprev
    exact hknown.step hrange (Server.step_core hs)

/-- An id is issued by the login that draws it. -/
theorem issued_step_iff {s s' : Server} {e : Event} (hs : server.step s e s') (p : PlayerId) :
    s'.Issued p ↔ s.Issued p ∨ ∃ name time, s.loggedIn e = some (p, name, time) := by
  rw [Server.Issued, Server.step_issued hs, List.map_append, List.mem_append]
  refine or_congr_right ?_
  have hiff := s.loggedIn_isSome_iff e
  cases hact : s.act e with
  | login sid =>
    rw [hact] at hiff
    obtain ⟨⟨q, name, time⟩, hlogin⟩ := Option.isSome_iff_exists.1 (hiff.trans rfl)
    have hq := Server.eq_nextPlayerId_of_loggedIn hlogin
    simp only [Act.issues, List.map_cons, List.map_nil, List.mem_singleton, hlogin,
      Option.some.injEq, Prod.mk.injEq]
    constructor
    · exact fun hp => ⟨name, time, hq.trans hp.symm, rfl, rfl⟩
    · rintro ⟨_, _, hp, -⟩
      exact hp.symm.trans hq
  | _ =>
    rw [hact] at hiff
    have hnone : s.loggedIn e = none := Option.isSome_eq_false_iff.1 hiff |> Option.isNone_iff_eq_none.1
    simp [Act.issues, hnone]

theorem issued_of_loggedIn {tr : History} {s : Server} (h : server.Run tr s) {x : Server × Event}
    (hx : x ∈ tr) {p : PlayerId} {name : Bytes} {time : ℤ}
    (hlogin : x.1.loggedIn x.2 = some (p, name, time)) : s.Issued p := by
  induction h with
  | nil => exact absurd hx List.not_mem_nil
  | @cons tr s s' e hrun hs ih =>
    rw [issued_step_iff hs]
    rcases List.mem_cons.1 hx with rfl | hx
    · exact .inr ⟨name, time, hlogin⟩
    · exact .inl (ih hx)

/-- An id that was issued is below the next one, so no login draws it again. -/
theorem loggedIn_ne_of_issued {tr : History} {s : Server} (h : server.Run tr s)
    (hn : tr.logins < 2 ^ 31 - 10000) {p : PlayerId} (hp : s.Issued p) (e : Event) (name : Bytes)
    (time : ℤ) : s.loggedIn e ≠ some (p, name, time) := fun hlogin => by
  obtain ⟨x, hx, rfl⟩ := List.mem_map.1 hp
  have hlt := (Server.issued_range h hn x hx).2
  exact hlt.ne (Server.eq_nextPlayerId_of_loggedIn hlogin)

/-- Only chats change the record of an issued player. -/
theorem profile_step_of_issued {tr : History} {s s' : Server} {e : Event} (h : server.Run tr s)
    (hn : tr.logins < 2 ^ 31 - 10000) (hs : server.step s e s') {p : PlayerId} (hp : s.Issued p) :
    s'.playerStateRepository.profile p =
      if s.chatsAs p e then
        (s.playerStateRepository.profile p).map fun x => (toInt (x.1 + 1), x.2)
      else s.playerStateRepository.profile p := by
  rw [Server.profile_step (Server.keyed_of_run h) hs]
  split_ifs
  · rfl
  · split
    · rename_i q name time hlogin
      rw [if_neg]
      rintro rfl
      exact loggedIn_ne_of_issued h hn hp e name time hlogin
    · rfl

/-- **The record of an issued player** is that of its login, with a score that counts its
chats. -/
theorem profile_of_run {tr : History} {s : Server} (h : server.Run tr s)
    (hn : tr.logins < 2 ^ 31 - 10000) {p : PlayerId} (hp : s.Issued p) (hc : tr.chats p < 2 ^ 31) :
    ∃ name time, s.playerStateRepository.profile p = some ((tr.chats p : ℤ), name, time) ∧
      (∃ x ∈ tr, x.1.loggedIn x.2 = some (p, name, time)) ∧
      ∀ x ∈ tr, ∀ name' time', x.1.loggedIn x.2 = some (p, name', time') →
        name' = name ∧ time' = time := by
  induction h with
  | nil => exact absurd hp List.not_mem_nil
  | @cons tr s s' e hrun hs ih =>
    have hn' : History.logins tr < 2 ^ 31 - 10000 :=
      lt_of_le_of_lt (logins_le_of_suffix (List.suffix_cons ..)) hn
    rw [chats_cons] at hc ⊢
    by_cases hold : s.Issued p
    · have hlogin := loggedIn_ne_of_issued hrun hn' hold e
      obtain ⟨name, time, hprofile, ⟨x, hx, hlog⟩, huniq⟩ := ih hn' hold (by omega)
      refine ⟨name, time, ?_, ⟨x, List.mem_cons_of_mem _ hx, hlog⟩,
        List.forall_mem_cons.2 ⟨fun name' time' hl => absurd hl (hlogin name' time'), huniq⟩⟩
      rw [profile_step_of_issued hrun hn' hs hold, hprofile]
      split_ifs at hc ⊢
      · rw [Option.map_some]
        dsimp only
        rw [toInt_of_lt (by omega) (by omega)]
        push_cast
        rfl
      · rw [Nat.add_zero]
    · -- The step is the login of `p`, before which no session had the id.
      obtain ⟨name, time, hl⟩ := ((issued_step_iff hs p).1 hp).resolve_left hold
      have hnext := Server.eq_nextPlayerId_of_loggedIn hl
      have hzero : History.chats tr p = 0 := by
        by_contra hne
        have hknown := known_of_chats hrun hn' hne
        rw [hnext] at hknown
        exact (WellBound.of_run hrun hn').next_not_known hknown
      have hchat : s.chatsAs p e = false := by
        unfold Server.loggedIn at hl
        split at hl
        · rfl
        · cases hl
      refine ⟨name, time, ?_, ⟨(s, e), List.mem_cons_self .., hl⟩, List.forall_mem_cons.2
        ⟨fun name' time' hl' => ?_, fun x hx name' time' hl' =>
          absurd (issued_of_loggedIn hrun hx hl') hold⟩⟩
      · rw [Server.profile_step (Server.keyed_of_run hrun) hs, hchat, hl, hzero]
        simp
      · obtain ⟨-, rfl, rfl⟩ : p = p ∧ name = name' ∧ time = time' := by
          simpa using hl.symm.trans hl'
        exact ⟨rfl, rfl⟩

/-- **Scores are exact.**  As long as the id counter has not wrapped around, the record of an issued
player with fewer than `2 ^ 31` chats has as its score the number of ChatReqs handled so far on
sessions whose `player_id_` was the player's, and the name and the time of the login that drew
the id; and no step but another such chat changes the three. -/
theorem scores_exact {tr : History} {s : Server} (h : server.Run tr s)
    (hn : tr.logins < 2 ^ 31 - 10000) {p : PlayerId} (hp : s.Issued p) (hc : tr.chats p < 2 ^ 31) :
    ∃ st, s.playerStateRepository.loadPlayerState p = some st ∧ st.score = tr.chats p ∧
      (∃ x ∈ tr, x.1.loggedIn x.2 = some (p, st.name, st.lastLoginTimeMs)) ∧
      (∀ x ∈ tr, ∀ name time, x.1.loggedIn x.2 = some (p, name, time) →
        name = st.name ∧ time = st.lastLoginTimeMs) ∧
      ∀ e s', server.step s e s' → s.chatsAs p e = false →
        ∃ st', s'.playerStateRepository.loadPlayerState p = some st' ∧ st'.score = st.score ∧
          st'.name = st.name ∧ st'.lastLoginTimeMs = st.lastLoginTimeMs := by
  obtain ⟨name, time, hprofile, hlogged, huniq⟩ := profile_of_run h hn hp hc
  obtain ⟨st, hst, heq⟩ := Option.map_eq_some_iff.1 hprofile
  obtain ⟨hscore, rfl, rfl⟩ : st.score = tr.chats p ∧ st.name = name ∧ st.lastLoginTimeMs = time := by
    simpa using heq
  refine ⟨st, hst, hscore, hlogged, huniq, fun e s' hs hchat => ?_⟩
  have hkeep : s'.playerStateRepository.profile p = s.playerStateRepository.profile p := by
    rw [profile_step_of_issued h hn hs hp, hchat, if_neg Bool.false_ne_true]
  obtain ⟨st', hst', heq'⟩ := Option.map_eq_some_iff.1 (hkeep.trans hprofile)
  obtain ⟨hscore', hname, htime⟩ : st'.score = tr.chats p ∧ st'.name = st.name ∧
      st'.lastLoginTimeMs = st.lastLoginTimeMs := by
    simpa using heq'
  exact ⟨st', hst', hscore'.trans hscore.symm, hname, htime⟩

/-- Two players are matched and the second chats twice. -/
theorem scores_exact_two : ∃ (s : Server) (st : PlayerState),
    s.playerStateRepository.loadPlayerState 10001 = some st ∧ st.score = 2 ∧ st.name = [0x62] := by
  obtain ⟨tr, s, h, hn, hp, hc, hlogin⟩ := Server.exists_run
    (Q := fun tr s => tr.logins < 2 ^ 31 - 10000 ∧ s.Issued 10001 ∧ tr.chats 10001 = 2 ∧
      (tr.any fun x => x.1.loggedIn x.2 = some (10001, [0x62], 0)) = true)
    (Server.pairUp ++ [.request 1 (.chat { roomId := 1 }) {}, .request 1 (.chat { roomId := 1 }) {}])
    (by decide +kernel)
  obtain ⟨st, hst, hscore, -, hlogged, -⟩ := scores_exact h hn hp (by rw [hc]; decide)
  obtain ⟨x, hx, hlogin⟩ := List.any_eq_true.1 hlogin
  exact ⟨s, st, hst, by rw [hscore, hc]; rfl,
    (hlogged x hx _ _ (of_decide_eq_true hlogin)).1.symm⟩

end GameServer
